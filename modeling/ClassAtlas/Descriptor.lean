import ClassAtlas.Text.Dotted

/-!
# Type descriptors

A descriptor spells the type of a field, or the parameter and result types of a
method, in the compact notation of class files: one letter for a primitive type,
`L`, an internal name and `;` for an object type, a bracket for each array
dimension. `FieldType.descriptor` writes a descriptor, the readers below accept
exactly what it writes, up to 255 dimensions.
-/

namespace ClassAtlas

open Text

/-- The primitive types of the platform. -/
inductive Primitive where
  /-- Signed eight bit integers. -/
  | byte
  /-- Sixteen bit code units. -/
  | char
  /-- Double precision floating point numbers. -/
  | double
  /-- Single precision floating point numbers. -/
  | float
  /-- Signed thirty-two bit integers. -/
  | int
  /-- Signed sixty-four bit integers. -/
  | long
  /-- Signed sixteen bit integers. -/
  | short
  /-- Truth values. -/
  | boolean
  deriving DecidableEq, Repr

namespace Primitive

/-- The letter of a primitive type in a descriptor. -/
def letter : Primitive → Char
  | byte => 'B'
  | char => 'C'
  | double => 'D'
  | float => 'F'
  | int => 'I'
  | long => 'J'
  | short => 'S'
  | boolean => 'Z'

/-- The primitive type of a descriptor letter. -/
def ofLetter? : Char → Option Primitive
  | 'B' => some byte
  | 'C' => some char
  | 'D' => some double
  | 'F' => some float
  | 'I' => some int
  | 'J' => some long
  | 'S' => some short
  | 'Z' => some boolean
  | _ => none

/-- The source spelling of a primitive type. -/
def name : Primitive → String
  | byte => "byte"
  | char => "char"
  | double => "double"
  | float => "float"
  | int => "int"
  | long => "long"
  | short => "short"
  | boolean => "boolean"

/-- Whether a value takes two local variable slots. -/
def isWide : Primitive → Bool
  | long | double => true
  | _ => false

/-- Every primitive type, by the alphabetical order of its spelling. -/
def all : List Primitive :=
  [boolean, byte, char, double, float, int, long, short]

end Primitive

/-- Whether a type name is the spelling of a primitive type. -/
def isPrimitiveName (name : String) : Bool :=
  Primitive.all.any (·.name = name)

/-- The type of a field, a parameter or a local variable. -/
inductive FieldType where
  /-- A primitive type. -/
  | primitive (kind : Primitive)
  /-- An object type, by the internal name of its class. -/
  | object (internalName : String)
  /-- Arrays of an element type. -/
  | array (element : FieldType)
  deriving DecidableEq, Repr

namespace FieldType

/-- Wraps a type in a number of array dimensions. -/
def arrayOf : Nat → FieldType → FieldType
  | 0, element => element
  | dimensions + 1, element => array (arrayOf dimensions element)

/-- The number of array dimensions of a type. -/
def dimensions : FieldType → Nat
  | array element => element.dimensions + 1
  | _ => 0

/-- The type inside all array dimensions. -/
def innermost : FieldType → FieldType
  | array element => element.innermost
  | other => other

/-- Whether a type is primitive; arrays are not. -/
def isPrimitive : FieldType → Bool
  | primitive _ => true
  | _ => false

/-- Whether a value takes two local variable slots. -/
def isWide : FieldType → Bool
  | primitive kind => kind.isWide
  | _ => false

/-- Number of local variable slots of a value. -/
def slotSize (type : FieldType) : Nat :=
  if type.isWide then 2 else 1

/-- Source spelling with the package: `int`, `java.lang.String`, `byte[][]`. -/
def qualifiedName : FieldType → String
  | primitive kind => kind.name
  | object internalName => internalToQualified internalName
  | array element => element.qualifiedName ++ "[]"

/-- Source spelling without the package: `String[]`. -/
def unqualifiedName : FieldType → String
  | primitive kind => kind.name
  | object internalName => simpleName (internalToQualified internalName)
  | array element => element.unqualifiedName ++ "[]"

/-- The written descriptor of a type. -/
def descriptor : FieldType → List Char
  | primitive kind => [kind.letter]
  | object internalName => 'L' :: (internalName.toList ++ [';'])
  | array element => '[' :: element.descriptor

end FieldType

/-- The greatest number of dimensions an array type may have. -/
def maxArrayDimensions : Nat := 255

/-- The parameter types and the result type of a method; no result type means `void`. -/
structure MethodType where
  /-- Parameter types in declaration order. -/
  parameters : List FieldType
  /-- The type of the result, if there is one. -/
  result : Option FieldType
  deriving DecidableEq, Repr

/-- The written descriptor of a result type, `V` for none. -/
def resultDescriptor : Option FieldType → List Char
  | some type => type.descriptor
  | none => ['V']

/-- The written descriptor of a method type. -/
def MethodType.descriptor (type : MethodType) : List Char :=
  '(' :: (type.parameters.flatMap FieldType.descriptor ++ ')' :: resultDescriptor type.result)

namespace Descriptor

/-- Reads a primitive or object type off the front of a text. -/
def readElementType : List Char → Option (FieldType × List Char)
  | [] => none
  | 'L' :: rest =>
    match rest.dropWhile (· ≠ ';') with
    | [] => none
    | _ :: behind => some (.object (String.ofList (rest.takeWhile (· ≠ ';'))), behind)
  | letter :: rest => (Primitive.ofLetter? letter).map fun kind => (.primitive kind, rest)

/-- Reads any field type off the front of a text. -/
def readFieldType (text : List Char) : Option (FieldType × List Char) :=
  let dimensions := (text.takeWhile (· = '[')).length
  if maxArrayDimensions < dimensions then none
  else
    (readElementType (text.dropWhile (· = '['))).map fun (element, rest) =>
      (FieldType.arrayOf dimensions element, rest)

/-- Reads as many field types as stand at the front of a text, behind those already read,
newest first. At most `limit` types are read. -/
def readFieldTypesBehind (read : List FieldType) :
    (limit : Nat) → List Char → List FieldType × List Char
  | 0, text => (read.reverse, text)
  | limit + 1, text =>
    match readFieldType text with
    | some (type, rest) => readFieldTypesBehind (type :: read) limit rest
    | none => (read.reverse, text)

/-- Reads as many field types as stand at the front of a text. -/
def readFieldTypes (text : List Char) : List FieldType × List Char :=
  readFieldTypesBehind [] text.length text

/-- Reads a result type off the front of a text. -/
def readResultType (text : List Char) : Option (Option FieldType × List Char) :=
  match readFieldType text with
  | some (type, rest) => some (some type, rest)
  | none =>
    match text with
    | 'V' :: rest => some (none, rest)
    | _ => none

/-- The type of a field descriptor, which must be the whole text. -/
def fieldType? (text : String) : Option FieldType :=
  match readFieldType text.toList with
  | some (type, []) => some type
  | _ => none

/-- The result type at the front of a text, with the unread rest. -/
def leadingResultType? (text : String) : Option (Option FieldType × String) :=
  (readResultType text.toList).map fun (type, rest) => (type, String.ofList rest)

/-- The result type spelled by a whole text. -/
def resultType? (text : String) : Option (Option FieldType) :=
  match readResultType text.toList with
  | some (type, []) => some type
  | _ => none

/-- The type of a method descriptor, which must be the whole text. -/
def methodType? (text : String) : Option MethodType :=
  match text.toList with
  | '(' :: inner =>
    match readFieldTypes inner with
    | (parameters, ')' :: behind) =>
      match readResultType behind with
      | some (result, []) => some ⟨parameters, result⟩
      | _ => none
    | _ => none
  | _ => none

end Descriptor

end ClassAtlas
