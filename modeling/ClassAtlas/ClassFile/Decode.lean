import ClassAtlas.ClassFile.AttributeReader
import ClassAtlas.ClassFile.Description
import ClassAtlas.ClassFile.PoolReader

/-!
# Decoding class files

`decode` reads a byte string as exactly one class file. It answers with the
description of the class or with the first cause of rejection met in reading
order; a file that ends early is reported with the offset of the first field that
does not fit.
-/

namespace ClassAtlas

open Reader AttributeReader

/-- The number every class file starts with. -/
def magic : UInt32 := 0xCAFEBABE

/-- The least supported major version. -/
def minMajorVersion : UInt16 := 45

/-- The greatest supported major version. -/
def maxMajorVersion : UInt16 := 69

/-- Slots the parameters of a method may take, the receiver included. -/
def maxParameterSlots : Nat := 255

/-- The magic number and the version, minor first. -/
def readVersion : Reader (UInt16 × UInt16) := do
  let found ← u4
  if found ≠ magic then reject (.badMagic found)
  else
    let minor ← u2
    let major ← u2
    if minMajorVersion ≤ major ∧ major ≤ maxMajorVersion then return (minor, major)
    else reject (.unsupportedVersion major minor)

/-- A field; `limit` bounds the number of bytes at hand. -/
def readField (pool : ConstantPool) (limit : Nat) : Reader Field := do
  let flags ← u2
  let nameIndex ← u2
  let typeIndex ← u2
  let attributes ← attributes pool limit
  let name ← checked (pool.utf8 nameIndex)
  let type ← checked (fieldTypeAt pool typeIndex)
  return { flags, name, type, attributes }

/-- The method type at an index. Parameters and receiver must fit into the slots a call
can pass. -/
def methodTypeAt (pool : ConstantPool) (flags index : UInt16) :
    Except DecodeError MethodType := do
  let text ← pool.utf8 index
  match Descriptor.methodType? text with
  | none => .error (.invalidDescriptor text)
  | some type =>
    let receiver := if AccessFlags.has flags AccessFlags.staticBit then 0 else 1
    if maxParameterSlots < receiver + parameterSlots type.parameters then
      .error (.invalidDescriptor text)
    else .ok type

/-- A method; `limit` bounds the number of bytes at hand. -/
def readMethod (pool : ConstantPool) (limit : Nat) : Reader Method := do
  let flags ← u2
  let nameIndex ← u2
  let typeIndex ← u2
  let attributes ← attributes pool limit
  let name ← checked (pool.utf8 nameIndex)
  let type ← checked (methodTypeAt pool flags typeIndex)
  return { flags, name, type, attributes }

/-- The dotted names of the interfaces. -/
def readInterfaces (pool : ConstantPool) : Reader (List String) := do
  let indices ← counted u2
  checked (qualifiedClassNames pool indices)

/-- Succeeds at the end of the bytes. -/
def endOfFile : Reader Unit := fun bytes =>
  if bytes.isEmpty then .ok ((), bytes)
  else .error (.rejected (.trailingBytes bytes.length))

/-- A whole class file; `limit` bounds the number of its bytes. -/
def readClass (limit : Nat) : Reader ClassDescription := do
  let (minorVersion, majorVersion) ← readVersion
  let pool ← PoolReader.pool
  let flags ← u2
  let nameIndex ← u2
  let superIndex ← u2
  let interfaces ← readInterfaces pool
  let fields ← counted (readField pool limit)
  let methods ← counted (readMethod pool limit)
  let attributes ← attributes pool limit
  endOfFile
  let name ← checked (qualifiedClassName pool nameIndex)
  let superclass ←
    if superIndex = 0 then pure none
    else some <$> checked (qualifiedClassName pool superIndex)
  return {
    minorVersion, majorVersion, pool, flags, name, superclass, interfaces, fields, methods,
    attributes }

/-- The class described by a byte string, or why it describes none. -/
def decode (bytes : Bytes) : Except DecodeError ClassDescription :=
  match readClass bytes.length bytes with
  | .ok (description, _) => .ok description
  | .error (.rejected error) => .error error
  | .error (.shape .endOfInput remaining) => .error (.truncated (bytes.length - remaining))
  | .error (.shape fault remaining) => .error (.malformed (bytes.length - remaining) fault)

end ClassAtlas
