import ClassAtlas.ClassFile.ConstantPool
import ClassAtlas.ClassFile.Reader
import ClassAtlas.Text.ModifiedUtf8

/-!
# Reading the constant pool

The pool is preceded by the number of its slots plus one. Constants are read in
order; a wide constant fills two slots and must not be the last one. The indices
stored in the pool are followed once all of it is read.
-/

namespace ClassAtlas.PoolReader

open Reader

/-- A text constant: a length in two bytes and as many bytes of text. -/
def utf8 (index : UInt16) : Reader Constant := do
  let length ← u2
  let bytes ← take length.toNat
  match Text.decodeConstant? bytes with
  | some text => pure (.utf8 text)
  | none => reject (.invalidText index)

/-- Two indices in a row. -/
def indexPair (build : UInt16 → UInt16 → Constant) : Reader Constant := do
  let first ← u2
  let second ← u2
  return build first second

/-- The constant of a tag; `index` is the slot it goes to. -/
def tagged (tag : UInt8) (index : UInt16) : Reader Constant :=
  match tag.toNat with
  | 1 => utf8 index
  | 3 => return .integer (← u4).toInt32
  | 4 => return .float (← u4)
  | 5 => return .long (← u8).toInt64
  | 6 => return .double (← u8)
  | 7 => return .classEntry (← u2)
  | 8 => return .stringEntry (← u2)
  | 9 => indexPair (.member .field)
  | 10 => indexPair (.member .method)
  | 11 => indexPair (.member .interfaceMethod)
  | 12 => indexPair .nameAndType
  | 15 => do
    let kind ← u1
    let reference ← u2
    return .methodHandle kind reference
  | 16 => return .methodType (← u2)
  | 17 => indexPair .dynamic
  | 18 => indexPair .invokeDynamic
  | 19 => return .moduleEntry (← u2)
  | 20 => return .packageEntry (← u2)
  | _ => reject (.invalidConstantTag tag index)

/-- One constant with its tag. -/
def constant (index : UInt16) : Reader Constant := do
  let tag ← u1
  tagged tag index

/-- Fills the missing slots behind those already filled. -/
def slotsBehind : (missing : Nat) → Array PoolSlot → Reader (Array PoolSlot)
  | 0, filled => fun bytes => .ok (filled, bytes)
  | missing + 1, filled => fun bytes =>
    let index := filled.size + 1
    match constant (UInt16.ofNat index) bytes with
    | .error fault => .error fault
    | .ok (entry, rest) =>
      if entry.isWide then
        match missing with
        | 0 => .error (.rejected (.badConstantIndex (UInt16.ofNat (index + 1))))
        | missing + 1 =>
          slotsBehind missing ((filled.push (.usable entry)).push .phantom) rest
      else slotsBehind missing (filled.push (.usable entry)) rest

/-- The whole pool, with all stored indices followed. -/
def pool : Reader ConstantPool := do
  let count ← u2
  if count = 0 then reject .emptyConstantPool
  else
    let slots ← slotsBehind (count.toNat - 1) #[]
    let pool : ConstantPool := ⟨slots⟩
    checked pool.validate
    return pool

end ClassAtlas.PoolReader
