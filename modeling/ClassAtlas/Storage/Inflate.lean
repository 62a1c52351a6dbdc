/-!
# Inflating compressed entries

Entries of archives are mostly compressed: a stream of bits, lowest bit of each
byte first, made of blocks that are stored as they are or spelled in prefix codes
for bytes and for copies of what was written before. Every step uses up bits, so
the number of bits bounds all loops.
-/

namespace ClassAtlas.Inflate

/-- A position in a stream of bits. -/
structure BitStream where
  /-- The bytes of the stream. -/
  data : ByteArray
  /-- The number of bits read. -/
  position : Nat

/-- Takes a value off a stream of bits, if the stream has the right form. -/
abbrev BitReader (α : Type) := StateT BitStream Option α

/-- The next bit. -/
def bit : BitReader Nat := fun stream =>
  match stream.data.data[stream.position / 8]? with
  | some byte =>
    some (byte.toNat >>> (stream.position % 8) % 2,
      { stream with position := stream.position + 1 })
  | none => none

/-- A number of some bits, the lowest bit first. -/
def bits : (width : Nat) → BitReader Nat
  | 0 => pure 0
  | width + 1 => do
    let low ← bit
    let high ← bits width
    return low + 2 * high

/-- Skips the rest of a byte. -/
def alignToByte : BitReader Unit := fun stream =>
  some ((), { stream with position := (stream.position + 7) / 8 * 8 })

/-- The longest code of a symbol. -/
def maxCodeLength : Nat := 15

/-- A prefix code in which codes of one length are consecutive, in the order of their
symbols. -/
structure PrefixCode where
  /-- How many symbols have codes of each length. -/
  counts : Array Nat
  /-- The symbols by the length of their codes. -/
  symbols : Array Nat

/-- The code in which each symbol has a code of a given length, or none for length zero. -/
def PrefixCode.ofLengths (lengths : List Nat) : PrefixCode :=
  let ofLength (n : Nat) : List Nat :=
    (lengths.zipIdx.filter fun (length, _) => length = n).map (·.2)
  let groups := (List.range maxCodeLength).map fun n => ofLength (n + 1)
  { counts := (0 :: groups.map List.length).toArray, symbols := groups.flatten.toArray }

/-- The symbol of the code that continues `read`, which is longer than all codes in front
of `start`; the first code of this length is `first`. -/
def symbolFrom (code : PrefixCode) : (left length read first start : Nat) → BitReader Nat
  | 0, _, _, _, _ => fun _ => none
  | left + 1, length, read, first, start => do
    let read := read * 2 + (← bit)
    let count := code.counts[length]?.getD 0
    if read < first + count then
      match code.symbols[start + (read - first)]? with
      | some symbol => return symbol
      | none => fun _ => none
    else symbolFrom code left (length + 1) read ((first + count) * 2) (start + count)

/-- The next symbol of a code. -/
def symbol (code : PrefixCode) : BitReader Nat :=
  symbolFrom code maxCodeLength 1 0 0 0

/-- Least length and number of further bits for each symbol of a copy length. -/
def copyLengths : Array (Nat × Nat) :=
  #[(3, 0), (4, 0), (5, 0), (6, 0), (7, 0), (8, 0), (9, 0), (10, 0), (11, 1), (13, 1), (15, 1),
    (17, 1), (19, 2), (23, 2), (27, 2), (31, 2), (35, 3), (43, 3), (51, 3), (59, 3), (67, 4),
    (83, 4), (99, 4), (115, 4), (131, 5), (163, 5), (195, 5), (227, 5), (258, 0)]

/-- Least distance and number of further bits for each symbol of a copy distance. -/
def copyDistances : Array (Nat × Nat) :=
  #[(1, 0), (2, 0), (3, 0), (4, 0), (5, 1), (7, 1), (9, 2), (13, 2), (17, 3), (25, 3), (33, 4),
    (49, 4), (65, 5), (97, 5), (129, 6), (193, 6), (257, 7), (385, 7), (513, 8), (769, 8),
    (1025, 9), (1537, 9), (2049, 10), (3073, 10), (4097, 11), (6145, 11), (8193, 12),
    (12289, 12), (16385, 13), (24577, 13)]

/-- A number given by a symbol and its further bits. -/
def extended (table : Array (Nat × Nat)) (symbol : Nat) : BitReader Nat :=
  match table[symbol]? with
  | some (least, width) => do
    let more ← bits width
    return least + more
  | none => fun _ => none

/-- Repeats what was written at a distance from the end. -/
def copyBack (distance : Nat) : (count : Nat) → ByteArray → ByteArray
  | 0, written => written
  | count + 1, written =>
    copyBack distance count (written.push (written.data[written.size - distance]?.getD 0))

/-- The symbols of a block up to its end. -/
def symbols (literals distances : PrefixCode) : (limit : Nat) → ByteArray → BitReader ByteArray
  | 0, _ => fun _ => none
  | limit + 1, written => do
    let next ← symbol literals
    if next < 256 then symbols literals distances limit (written.push (UInt8.ofNat next))
    else if next = 256 then return written
    else
      let count ← extended copyLengths (next - 257)
      let distance ← extended copyDistances (← symbol distances)
      if written.size < distance then fun _ => none
      else symbols literals distances limit (copyBack distance count written)

/-- A number of bytes taken over as they are. -/
def storedBytes : (count : Nat) → ByteArray → BitReader ByteArray
  | 0, written => return written
  | count + 1, written => do
    let byte ← bits 8
    storedBytes count (written.push (UInt8.ofNat byte))

/-- Code lengths spelled by a code of their own, newest first, until there are enough. -/
def codeLengths (code : PrefixCode) (wanted : Nat) :
    (limit : Nat) → List Nat → BitReader (List Nat)
  | 0, _ => fun _ => none
  | limit + 1, read =>
    if wanted ≤ read.length then return read.reverse.take wanted
    else do
      let next ← symbol code
      if next < 16 then codeLengths code wanted limit (next :: read)
      else
        let (value, least, width) :=
          if next = 16 then (read.headD 0, 3, 2)
          else if next = 17 then (0, 3, 3)
          else (0, 11, 7)
        let more ← bits width
        codeLengths code wanted limit (List.replicate (least + more) value ++ read)

/-- The order in which the lengths of the code for code lengths are given. -/
def lengthOrder : List Nat :=
  [16, 17, 18, 0, 8, 7, 9, 6, 10, 5, 11, 4, 12, 3, 13, 2, 14, 1, 15]

/-- A number of values of three bits. -/
def tripleBits : (count : Nat) → BitReader (List Nat)
  | 0 => return []
  | count + 1 => do
    let value ← bits 3
    let rest ← tripleBits count
    return value :: rest

/-- The codes at the beginning of a block, for literals and for distances. -/
def blockCodes (limit : Nat) : BitReader (PrefixCode × PrefixCode) := do
  let literals := (← bits 5) + 257
  let distances := (← bits 5) + 1
  let given ← tripleBits ((← bits 4) + 4)
  let pairs := lengthOrder.zip given
  let lengths := (List.range 19).map fun n =>
    match pairs.find? (·.1 = n) with
    | some (_, length) => length
    | none => 0
  let all ← codeLengths (.ofLengths lengths) (literals + distances) limit []
  return (.ofLengths (all.take literals), .ofLengths (all.drop literals))

/-- The codes of blocks without codes of their own. -/
def fixedCodes : PrefixCode × PrefixCode :=
  (.ofLengths (List.replicate 144 8 ++ List.replicate 112 9 ++ List.replicate 24 7
    ++ List.replicate 8 8), .ofLengths (List.replicate 30 5))

/-- The content of a block, behind what was written before. -/
def block (limit kind : Nat) (written : ByteArray) : BitReader ByteArray :=
  match kind with
  | 0 => do
    alignToByte
    let count ← bits 16
    let _ ← bits 16
    storedBytes count written
  | 1 => symbols fixedCodes.1 fixedCodes.2 limit written
  | 2 => do
    let (literals, distances) ← blockCodes limit
    symbols literals distances limit written
  | _ => fun _ => none

/-- All blocks up to the last one. -/
def blocks (bound : Nat) : (limit : Nat) → ByteArray → BitReader ByteArray
  | 0, _ => fun _ => none
  | limit + 1, written => do
    let last ← bit
    let kind ← bits 2
    let written ← block bound kind written
    if last = 1 then return written else blocks bound limit written

/-- The bytes of a compressed entry. -/
def inflate? (data : ByteArray) : Option ByteArray :=
  let bound := data.size * 8 + 1
  (blocks bound bound .empty ⟨data, 0⟩).map (·.1)

end ClassAtlas.Inflate
