import ClassAtlas.ClassFile.DecodeError

/-!
# Reading bytes

A reader takes a value off the front of a byte string and leaves the rest.
Numbers are stored with the most significant byte first. A reader that runs out
of bytes reports how many were left where the unfinished field starts, so that
the offset of the field can be told once the length of the whole file is known.
-/

namespace ClassAtlas

/-- A string of bytes. -/
abbrev Bytes := List UInt8

/-- Why a reader stops. -/
inductive Fault where
  /-- The bytes have the wrong shape; `remaining` bytes were left at the faulty field. -/
  | shape (fault : ShapeFault) (remaining : Nat)
  /-- The bytes have a shape, and their meaning is rejected. -/
  | rejected (error : DecodeError)
  deriving DecidableEq, Repr

/-- Takes a value off the front of a byte string. -/
abbrev Reader (α : Type) := StateT Bytes (Except Fault) α

namespace Reader

/-- Stops with a shape fault at the current position. -/
def misshapen {α : Type} (fault : ShapeFault) : Reader α :=
  fun bytes => .error (.shape fault bytes.length)

/-- Stops with a cause of rejection. -/
def reject {α : Type} (error : DecodeError) : Reader α :=
  fun _ => .error (.rejected error)

/-- Takes over the result of a check. -/
def checked {α : Type} : Except DecodeError α → Reader α
  | .ok value => pure value
  | .error error => reject error

/-- One byte. -/
def u1 : Reader UInt8
  | a :: rest => .ok (a, rest)
  | short => misshapen .endOfInput short

/-- An unsigned number of two bytes. -/
def u2 : Reader UInt16
  | a :: b :: rest => .ok (UInt16.ofNat (a.toNat * 0x100 + b.toNat), rest)
  | short => misshapen .endOfInput short

/-- The number spelled by bytes, most significant first. -/
def bigEndian (bytes : Bytes) : Nat :=
  bytes.foldl (fun n b => n * 0x100 + b.toNat) 0

/-- An unsigned number of four bytes. -/
def u4 : Reader UInt32
  | a :: b :: c :: d :: rest => .ok (UInt32.ofNat (bigEndian [a, b, c, d]), rest)
  | short => misshapen .endOfInput short

/-- An unsigned number of eight bytes. -/
def u8 : Reader UInt64
  | a :: b :: c :: d :: e :: f :: g :: h :: rest =>
    .ok (UInt64.ofNat (bigEndian [a, b, c, d, e, f, g, h]), rest)
  | short => misshapen .endOfInput short

/-- A given number of bytes. -/
def take (count : Nat) : Reader Bytes := fun bytes =>
  let taken := bytes.take count
  if taken.length = count then .ok (taken, bytes.drop count)
  else misshapen .endOfInput bytes

/-- A given number of values behind those already read, newest first. -/
def repeatedBehind {α : Type} (item : Reader α) : (count : Nat) → List α → Reader (List α)
  | 0, read => fun bytes => .ok (read.reverse, bytes)
  | count + 1, read => fun bytes =>
    match item bytes with
    | .ok (value, rest) => repeatedBehind item count (value :: read) rest
    | .error fault => .error fault

/-- A given number of values, one after the other. -/
def repeated {α : Type} (count : Nat) (item : Reader α) : Reader (List α) :=
  repeatedBehind item count []

/-- Values preceded by their number in two bytes. -/
def counted {α : Type} (item : Reader α) : Reader (List α) := do
  let count ← u2
  repeated count.toNat item

end Reader

end ClassAtlas
