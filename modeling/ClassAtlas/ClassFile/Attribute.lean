import ClassAtlas.Descriptor
import ClassAtlas.ClassFile.Reader

/-!
# Attributes

Attributes attach further facts to classes, fields, methods and method bodies.
Eleven kinds are understood; every other attribute is kept by its name and its
bytes. All names and texts are already taken out of the constant pool.
-/

namespace ClassAtlas

/-- A value recorded in a class file. The small integer kinds keep the unconverted
thirty-two bit number. -/
inductive ConstantValue where
  /-- A number of type `byte`. -/
  | byte (value : Int32)
  /-- A code unit of type `char`. -/
  | char (value : Int32)
  /-- The bits of a `double`. -/
  | double (bits : UInt64)
  /-- The bits of a `float`. -/
  | float (bits : UInt32)
  /-- A number of type `int`. -/
  | int (value : Int32)
  /-- A number of type `long`. -/
  | long (value : Int64)
  /-- A number of type `short`. -/
  | short (value : Int32)
  /-- A truth value, by its number. -/
  | boolean (value : Int32)
  /-- A text. -/
  | string (text : String)
  deriving DecidableEq, Repr

/-- An `int` takes the kind that an element tag asks for; other values stay as they are. -/
def ConstantValue.narrow (tag : Char) : ConstantValue → ConstantValue
  | int value =>
    if tag = 'B' then byte value
    else if tag = 'C' then char value
    else if tag = 'S' then short value
    else if tag = 'Z' then boolean value
    else int value
  | other => other

/-- A type applied as an annotation, with its named elements. -/
structure AnnotationOf (ε : Type) where
  /-- The annotation type. -/
  type : FieldType
  /-- Element names with their values, in order. -/
  elements : List (String × ε)

/-- The value of an annotation element. -/
inductive ElementValue where
  /-- A number, a truth value or a text. -/
  | constant (value : ConstantValue)
  /-- A constant of an enumeration, by the written type and the name. -/
  | enumeration (typeName constantName : String)
  /-- A class literal; none stands for `void`. -/
  | classLiteral (type : Option FieldType)
  /-- An annotation as a value. -/
  | nested (value : AnnotationOf ElementValue)
  /-- A list of values. -/
  | array (values : List ElementValue)

/-- An annotation of a class, field or method. -/
abbrev AnnotationValue := AnnotationOf ElementValue

/-- A range of instructions protected by a handler. -/
structure ExceptionHandler where
  /-- First protected instruction. -/
  startPc : UInt16
  /-- End of the protected range. -/
  endPc : UInt16
  /-- First instruction of the handler. -/
  handlerPc : UInt16
  /-- Qualified name of the caught class; none catches everything. -/
  catchType : Option String

/-- The source line of an instruction. -/
structure LineNumber where
  /-- The instruction. -/
  startPc : UInt16
  /-- Its line. -/
  line : UInt16

/-- A local variable of a method body. -/
structure LocalVariable where
  /-- First instruction of its scope. -/
  startPc : UInt16
  /-- Length of its scope. -/
  length : UInt16
  /-- Its name. -/
  name : String
  /-- Its type. -/
  type : FieldType
  /-- Its slot. -/
  index : UInt16

/-- A parameter as the compiler recorded it. -/
structure RecordedParameter where
  /-- Its name, unless it was recorded without one. -/
  name : Option String
  /-- Its flag bits. -/
  flags : UInt16

/-- A method body with attributes of a given type. -/
structure CodeBody (α : Type) where
  /-- Greatest depth of the operand stack. -/
  maxStack : UInt16
  /-- Number of local variable slots. -/
  maxLocals : UInt16
  /-- The instructions. -/
  code : Bytes
  /-- The protected ranges, in order of preference. -/
  handlers : List ExceptionHandler
  /-- Attributes of the body. -/
  attributes : List α

/-- An attribute of a class, field, method or method body. -/
inductive Attribute where
  /-- The body of a method. -/
  | code (body : CodeBody Attribute)
  /-- The value of a constant field. -/
  | constantValue (value : ConstantValue)
  /-- Marks a deprecated item. -/
  | deprecated
  /-- Marks a compiler generated item. -/
  | synthetic
  /-- The generic signature of an item. -/
  | signature (text : String)
  /-- The name of the source file. -/
  | sourceFile (name : String)
  /-- Qualified names of the declared exceptions. -/
  | exceptions (names : List String)
  /-- Lines of instructions. -/
  | lineNumberTable (lines : List LineNumber)
  /-- Local variables of a body. -/
  | localVariableTable (locals : List LocalVariable)
  /-- Recorded parameters of a method. -/
  | methodParameters (parameters : List RecordedParameter)
  /-- Annotations visible at run time. -/
  | runtimeVisibleAnnotations (values : List AnnotationValue)
  /-- An attribute of another name, kept as bytes. -/
  | unknown (name : String) (content : Bytes)

namespace Attribute

/-- The name an attribute has in the class file. -/
def name : Attribute → String
  | code _ => "Code"
  | constantValue _ => "ConstantValue"
  | deprecated => "Deprecated"
  | synthetic => "Synthetic"
  | signature _ => "Signature"
  | sourceFile _ => "SourceFile"
  | exceptions _ => "Exceptions"
  | lineNumberTable _ => "LineNumberTable"
  | localVariableTable _ => "LocalVariableTable"
  | methodParameters _ => "MethodParameters"
  | runtimeVisibleAnnotations _ => "RuntimeVisibleAnnotations"
  | unknown name _ => name

/-- Whether an attribute marks its item as deprecated, by itself or by an annotation. -/
def marksDeprecated : Attribute → Bool
  | deprecated => true
  | runtimeVisibleAnnotations values =>
    values.any fun value => value.type = .object "java/lang/Deprecated"
  | _ => false

/-- The method body held by an attribute. -/
def code? : Attribute → Option (CodeBody Attribute)
  | code body => some body
  | _ => none

/-- The constant value held by an attribute. -/
def constantValue? : Attribute → Option ConstantValue
  | constantValue value => some value
  | _ => none

/-- The source file name held by an attribute. -/
def sourceFile? : Attribute → Option String
  | sourceFile name => some name
  | _ => none

/-- The name of a parameter recorded by an attribute. -/
def parameterName? (position : Nat) : Attribute → Option String
  | methodParameters parameters => parameters[position]?.bind (·.name)
  | _ => none

/-- The local variables listed by an attribute. -/
def localVariables : Attribute → List LocalVariable
  | localVariableTable locals => locals
  | _ => []

end Attribute

/-- All local variables listed for a method body, table after table. -/
def CodeBody.localVariables (body : CodeBody Attribute) : List LocalVariable :=
  body.attributes.flatMap Attribute.localVariables

end ClassAtlas
