import ClassAtlas.ClassFile.Attribute
import ClassAtlas.ClassFile.ConstantPool

/-!
# Reading attributes

An attribute is the index of its name, the length of its content and the content.
The content of a known attribute is read on its own and has to be used up to the
last byte: running out of bytes, bytes left over, an unknown element tag and too
deep nesting are all reported as a wrong length of the attribute. A cause of
rejection found inside the content is reported as it is.
-/

namespace ClassAtlas.AttributeReader

open Reader

/-- The dotted name of the class at an index. -/
def qualifiedClassName (pool : ConstantPool) (index : UInt16) : Except DecodeError String :=
  (pool.className index).map Text.internalToQualified

/-- The dotted names of the classes at some indices, up to the first failure. -/
def qualifiedClassNames (pool : ConstantPool) (indices : List UInt16) :
    Except DecodeError (List String) :=
  indices.mapM (qualifiedClassName pool)

/-- The text at an index, which must be a field descriptor. -/
def fieldTypeAt (pool : ConstantPool) (index : UInt16) : Except DecodeError FieldType := do
  let text ← pool.utf8 index
  match Descriptor.fieldType? text with
  | some type => .ok type
  | none => .error (.invalidDescriptor text)

/-- The text at an index, which must be a result descriptor. -/
def resultTypeAt (pool : ConstantPool) (index : UInt16) :
    Except DecodeError (Option FieldType) := do
  let text ← pool.utf8 index
  match Descriptor.resultType? text with
  | some type => .ok type
  | none => .error (.invalidDescriptor text)

/-- The number or string at an index. -/
def loadableAt (pool : ConstantPool) (index : UInt16) : Except DecodeError ConstantValue := do
  match ← pool.get index with
  | .integer value => .ok (.int value)
  | .float bits => .ok (.float bits)
  | .long value => .ok (.long value)
  | .double bits => .ok (.double bits)
  | .stringEntry _ => do
    let text ← pool.string index
    .ok (.string text)
  | _ => .error (.constantMismatch index .loadable)

/-- Element values may be nested this deep inside an annotation. -/
def maxElementDepth : Nat := 64

/-- An annotation whose elements are read by a given reader. -/
def annotationOf (pool : ConstantPool) (element : Reader ElementValue) :
    Reader AnnotationValue := do
  let typeIndex ← u2
  let type ← checked (fieldTypeAt pool typeIndex)
  let elements ← counted do
    let nameIndex ← u2
    let name ← checked (pool.utf8 nameIndex)
    let value ← element
    return (name, value)
  return { type, elements }

/-- A constant element of one of the tags `BCDFIJSZs`. -/
def constantElement (pool : ConstantPool) (tag : Char) : Reader ElementValue := do
  let index ← u2
  if tag = 's' then
    let text ← checked (pool.utf8 index)
    return .constant (.string text)
  else
    let value ← checked (loadableAt pool index)
    return .constant (value.narrow tag)

/-- An element value that may hold `room` levels of element values, itself included. -/
def elementValue (pool : ConstantPool) : (room : Nat) → Reader ElementValue
  | 0 => misshapen .nestingTooDeep
  | room + 1 => do
    let tag ← u1
    match Char.ofNat tag.toNat with
    | 'B' => constantElement pool 'B'
    | 'C' => constantElement pool 'C'
    | 'D' => constantElement pool 'D'
    | 'F' => constantElement pool 'F'
    | 'I' => constantElement pool 'I'
    | 'J' => constantElement pool 'J'
    | 'S' => constantElement pool 'S'
    | 'Z' => constantElement pool 'Z'
    | 's' => constantElement pool 's'
    | 'e' => do
      let typeIndex ← u2
      let nameIndex ← u2
      let typeName ← checked (pool.utf8 typeIndex)
      let constantName ← checked (pool.utf8 nameIndex)
      return .enumeration typeName constantName
    | 'c' => do
      let index ← u2
      let type ← checked (resultTypeAt pool index)
      return .classLiteral type
    | '@' => do
      let value ← annotationOf pool (elementValue pool room)
      return .nested value
    | '[' => do
      let values ← counted (elementValue pool room)
      return .array values
    | _ => misshapen .unknownElementTag

/-- An annotation of a class, field or method. -/
def outermostValue (pool : ConstantPool) : Reader AnnotationValue :=
  annotationOf pool (elementValue pool maxElementDepth)

/-- A protected range of a method body. -/
def exceptionHandler (pool : ConstantPool) : Reader ExceptionHandler := do
  let startPc ← u2
  let endPc ← u2
  let handlerPc ← u2
  let catchIndex ← u2
  if catchIndex = 0 then return { startPc, endPc, handlerPc, catchType := none }
  else
    let name ← checked (qualifiedClassName pool catchIndex)
    return { startPc, endPc, handlerPc, catchType := some name }

/-- A line of the line number table. -/
def lineNumber : Reader LineNumber := do
  let startPc ← u2
  let line ← u2
  return { startPc, line }

/-- A variable of the local variable table. -/
def localVariable (pool : ConstantPool) : Reader LocalVariable := do
  let startPc ← u2
  let length ← u2
  let nameIndex ← u2
  let typeIndex ← u2
  let index ← u2
  let name ← checked (pool.utf8 nameIndex)
  let type ← checked (fieldTypeAt pool typeIndex)
  return { startPc, length, name, type, index }

/-- A recorded parameter; index zero stands for no name. -/
def recordedParameter (pool : ConstantPool) : Reader RecordedParameter := do
  let nameIndex ← u2
  let flags ← u2
  if nameIndex = 0 then return { name := none, flags }
  else
    let name ← checked (pool.utf8 nameIndex)
    return { name := some name, flags }

/-- A method body whose attributes are read by a given reader. -/
def codeBody (pool : ConstantPool) (attributes : Reader (List Attribute)) :
    Reader (CodeBody Attribute) := do
  let maxStack ← u2
  let maxLocals ← u2
  let codeLength ← u4
  let code ← take codeLength.toNat
  let handlers ← counted (exceptionHandler pool)
  let attributes ← attributes
  return { maxStack, maxLocals, code, handlers, attributes }

/-- The text at the index that is the whole content of an attribute. -/
def textContent (pool : ConstantPool) : Reader String := do
  let index ← u2
  checked (pool.utf8 index)

/-- The reader of the content of a known attribute; `attributes` reads the attributes of a
method body. -/
def knownContent? (pool : ConstantPool) (attributes : Reader (List Attribute)) :
    (name : String) → Option (Reader Attribute)
  | "Code" => some (.code <$> codeBody pool attributes)
  | "ConstantValue" => some do
    let index ← u2
    let value ← checked (loadableAt pool index)
    return .constantValue value
  | "Deprecated" => some (pure .deprecated)
  | "Synthetic" => some (pure .synthetic)
  | "Signature" => some (.signature <$> textContent pool)
  | "SourceFile" => some (.sourceFile <$> textContent pool)
  | "Exceptions" => some do
    let indices ← counted u2
    let names ← checked (qualifiedClassNames pool indices)
    return .exceptions names
  | "LineNumberTable" => some (.lineNumberTable <$> counted lineNumber)
  | "LocalVariableTable" => some (.localVariableTable <$> counted (localVariable pool))
  | "MethodParameters" => some do
    let count ← u1
    let parameters ← repeated count.toNat (recordedParameter pool)
    return .methodParameters parameters
  | "RuntimeVisibleAnnotations" =>
    some (.runtimeVisibleAnnotations <$> counted (outermostValue pool))
  | _ => none

/-- Reads a content to its end. Every shape fault and every byte left over becomes the
given error; a cause of rejection is kept. -/
def wholeContent {α : Type} (reader : Reader α) (mismatch : DecodeError) (content : Bytes) :
    Except DecodeError α :=
  match reader content with
  | .ok (value, []) => .ok value
  | .ok (_, _ :: _) => .error mismatch
  | .error (.shape _ _) => .error mismatch
  | .error (.rejected error) => .error error

/-- One attribute; `attributes` reads the attributes of a method body. -/
def single (pool : ConstantPool) (attributes : Reader (List Attribute)) :
    Reader Attribute := do
  let nameIndex ← u2
  let length ← u4
  let name ← checked (pool.utf8 nameIndex)
  let content ← take length.toNat
  match knownContent? pool attributes name with
  | none => return .unknown name content
  | some reader => checked (wholeContent reader (.attributeLength name length) content)

/-- The attributes of an item. Method bodies hold attributes in turn, whose bytes are part
of the content of an attribute; `limit` bounds the number of bytes at hand, so that
nothing is left to read when it reaches zero. -/
def attributes (pool : ConstantPool) : (limit : Nat) → Reader (List Attribute)
  | 0 => misshapen .endOfInput
  | limit + 1 => counted (single pool (attributes pool limit))

end ClassAtlas.AttributeReader
