import ClassAtlas.Storage.FileTree
import ClassAtlas.Storage.Inflate
import ClassAtlas.Text.Utf8

/-!
# Archives as files

An archive file ends in a directory of its entries, which tells for each entry
its name, its checksum and where its bytes are. Numbers are stored with the
least significant byte first. An entry whose bytes cannot be had or do not have
the checksum is corrupt; a file without such a directory is no archive.
-/

namespace ClassAtlas.Zip

/-- The number of some bytes at an offset, the least significant byte first. -/
def number? (data : ByteArray) (offset : Nat) : (width : Nat) → Option Nat
  | 0 => some 0
  | width + 1 => do
    let low ← data.data[offset]?
    let high ← number? data (offset + 1) width
    return low.toNat + 0x100 * high

/-- Some bytes at an offset. -/
def slice? (data : ByteArray) (offset length : Nat) : Option ByteArray :=
  if offset + length ≤ data.size then some (data.extract offset (offset + length)) else none

/-- One step of the checksum for a single bit. -/
def checksumBit (sum : UInt32) : UInt32 :=
  if sum &&& 1 = 1 then (sum >>> 1) ^^^ 0xEDB88320 else sum >>> 1

/-- The checksum behind one more byte. -/
def checksumByte (sum : UInt32) (byte : UInt8) : UInt32 :=
  (List.range 8).foldl (fun sum _ => checksumBit sum) (sum ^^^ byte.toUInt32)

/-- The checksum of some bytes. -/
def checksum (data : ByteArray) : UInt32 :=
  data.data.foldl checksumByte 0xFFFFFFFF ^^^ 0xFFFFFFFF

/-- The bytes of an entry whose local header is at an offset. -/
def content? (data : ByteArray) (method offset stored : Nat) : Option ByteArray := do
  let nameLength ← number? data (offset + 26) 2
  let extraLength ← number? data (offset + 28) 2
  let raw ← slice? data (offset + 30 + nameLength + extraLength) stored
  match method with
  | 0 => return raw
  | 8 => Inflate.inflate? raw
  | _ => none

/-- The entry of the directory at an offset, and where the next one is. -/
def entry? (data : ByteArray) (offset : Nat) : Option (ArchiveEntry × Nat) := do
  let signature ← number? data offset 4
  if signature ≠ 0x02014B50 then none
  else
    let method ← number? data (offset + 10) 2
    let declared ← number? data (offset + 16) 4
    let stored ← number? data (offset + 20) 4
    let nameLength ← number? data (offset + 28) 2
    let extraLength ← number? data (offset + 30) 2
    let commentLength ← number? data (offset + 32) 2
    let start ← number? data (offset + 42) 4
    let name ← slice? data (offset + 46) nameLength
    let written := Text.decodeUtf8Lossy name.data.toList
    let next := offset + 46 + nameLength + extraLength + commentLength
    match content? data method start stored with
    | some content =>
      return (⟨written, content.data.toList, (checksum content).toNat ≠ declared⟩, next)
    | none => return (⟨written, [], true⟩, next)

/-- A number of entries of the directory from an offset on. -/
def entriesFrom (data : ByteArray) : (count offset : Nat) → Option (List ArchiveEntry)
  | 0, _ => some []
  | count + 1, offset => do
    let (entry, next) ← entry? data offset
    let rest ← entriesFrom data count next
    return entry :: rest

/-- Looks backwards for the record that ends an archive. -/
def endRecord? (data : ByteArray) : (below : Nat) → Option Nat
  | 0 => none
  | offset + 1 =>
    if number? data offset 4 = some 0x06054B50 then some offset else endRecord? data offset

/-- The entries of an archive file. -/
def entries? (data : ByteArray) : Option (List ArchiveEntry) := do
  let record ← endRecord? data data.size
  let count ← number? data (record + 10) 2
  let start ← number? data (record + 16) 4
  entriesFrom data count start

end ClassAtlas.Zip
