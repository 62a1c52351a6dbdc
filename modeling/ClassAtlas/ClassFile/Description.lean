import ClassAtlas.ClassFile.AccessFlags
import ClassAtlas.ClassFile.Attribute
import ClassAtlas.ClassFile.ConstantPool

/-!
# Class descriptions

What a class file says about its class, with every name written out in dotted
form. The views of members below give their visibility, their names for
parameters and their keys and signatures.
-/

namespace ClassAtlas

open Text

/-- A declared field. -/
structure Field where
  /-- All sixteen flag bits. -/
  flags : UInt16
  /-- Name of the field. -/
  name : String
  /-- Type of the field. -/
  type : FieldType
  /-- Attributes of the field. -/
  attributes : List Attribute

namespace Field

/-- Visible everywhere. -/
def isPublic (field : Field) : Bool := AccessFlags.has field.flags AccessFlags.publicBit

/-- Belongs to the class. -/
def isStatic (field : Field) : Bool := AccessFlags.has field.flags AccessFlags.staticBit

/-- Cannot be assigned. -/
def isFinal (field : Field) : Bool := AccessFlags.has field.flags AccessFlags.finalBit

/-- Marked as deprecated. -/
def isDeprecated (field : Field) : Bool := field.attributes.any Attribute.marksDeprecated

/-- The value of a constant field. -/
def constantValue? (field : Field) : Option ConstantValue :=
  field.attributes.findSome? Attribute.constantValue?

end Field

/-- A declared method, constructor or initializer. -/
structure Method where
  /-- All sixteen flag bits. -/
  flags : UInt16
  /-- Name of the method. -/
  name : String
  /-- Parameter and result types. -/
  type : MethodType
  /-- Attributes of the method. -/
  attributes : List Attribute

/-- Local variable slots taken by parameters of the given types. -/
def parameterSlots (types : List FieldType) : Nat :=
  types.foldr (fun type slots => type.slotSize + slots) 0

/-- The name of a parameter without a name of its own. -/
def positionalName (position : Nat) : String :=
  "arg" ++ toString position

namespace Method

/-- Initializes instances. -/
def isConstructor (method : Method) : Bool := method.name = "<init>"

/-- Initializes the class. -/
def isStaticInitializer (method : Method) : Bool := method.name = "<clinit>"

/-- Visible everywhere. -/
def isPublic (method : Method) : Bool := AccessFlags.has method.flags AccessFlags.publicBit

/-- Belongs to the class. -/
def isStatic (method : Method) : Bool := AccessFlags.has method.flags AccessFlags.staticBit

/-- Declared without a body. -/
def isAbstract (method : Method) : Bool := AccessFlags.has method.flags AccessFlags.abstractBit

/-- Cannot be overridden. -/
def isFinal (method : Method) : Bool := AccessFlags.has method.flags AccessFlags.finalBit

/-- Marked as deprecated. -/
def isDeprecated (method : Method) : Bool := method.attributes.any Attribute.marksDeprecated

/-- A bridge or synthetic method, which has no counterpart in the source. -/
def isCompilerGenerated (method : Method) : Bool :=
  AccessFlags.has method.flags AccessFlags.bridgeBit
    || AccessFlags.has method.flags AccessFlags.syntheticBit

/-- The body, if the method has one. -/
def code? (method : Method) : Option (CodeBody Attribute) :=
  method.attributes.findSome? Attribute.code?

/-- The number of parameters. -/
def arity (method : Method) : Nat :=
  method.type.parameters.length

/-- The spelling of the result type with its package, `void` for none. -/
def resultName (method : Method) : String :=
  match method.type.result with
  | some type => type.qualifiedName
  | none => "void"

/-- The spelling of the result type without its package, `void` for none. -/
def unqualifiedResultName (method : Method) : String :=
  match method.type.result with
  | some type => type.unqualifiedName
  | none => "void"

/-- The slot of a parameter: the receiver of an instance method comes first, wide
parameters take two slots. -/
def parameterSlot (method : Method) (position : Nat) : Nat :=
  (if method.isStatic then 0 else 1) + parameterSlots (method.type.parameters.take position)

/-- The name the compiler recorded for a parameter: a parameter attribute wins, then the
local variable that occupies the slot of the parameter from the first instruction on. -/
def parameterName? (method : Method) (position : Nat) : Option String :=
  if method.arity ≤ position then none
  else
    match method.attributes.findSome? (Attribute.parameterName? position) with
    | some name => some name
    | none =>
      let slot := method.parameterSlot position
      if 0xFFFF < slot then none
      else do
        let body ← method.code?
        let found ← body.localVariables.find? fun v => v.index.toNat = slot && v.startPc = 0
        return found.name

/-- A name for a parameter in any case. -/
def parameterName (method : Method) (position : Nat) : String :=
  (method.parameterName? position).getD (positionalName position)

/-- `name(int, java.lang.String)`. -/
def key (method : Method) : String :=
  method.name ++ "(" ++ joined ", " (method.type.parameters.map FieldType.qualifiedName) ++ ")"

/-- Types and names of parameters as they are written between parentheses. -/
def writtenParameters (parameters : List (String × String)) : String :=
  joined ", " (parameters.map fun (type, name) => type ++ " " ++ name)

/-- Modifiers, result type, name and parameters: `public static int max(int a, int b)`. -/
def signature (method : Method) : String :=
  let modifiers := AccessFlags.methodModifiers method.flags
  let parameters := method.type.parameters.zipIdx.map fun (type, position) =>
    (type.qualifiedName, method.parameterName position)
  (if modifiers = "" then "" else modifiers ++ " ")
    ++ method.resultName ++ " " ++ method.name ++ "(" ++ writtenParameters parameters ++ ")"

end Method

/-- A decoded class file. -/
structure ClassDescription where
  /-- Minor format version. -/
  minorVersion : UInt16
  /-- Major format version. -/
  majorVersion : UInt16
  /-- The constant pool. -/
  pool : ConstantPool
  /-- All sixteen flag bits. -/
  flags : UInt16
  /-- Qualified name of the class. -/
  name : String
  /-- Qualified name of the superclass, if there is one. -/
  superclass : Option String
  /-- Qualified names of the interfaces, in order. -/
  interfaces : List String
  /-- Declared fields, in order. -/
  fields : List Field
  /-- Declared methods, in order. -/
  methods : List Method
  /-- Attributes of the class. -/
  attributes : List Attribute

namespace ClassDescription

/-- The name without the package. -/
def simpleName (description : ClassDescription) : String :=
  Text.simpleName description.name

/-- The package, empty for the default package. -/
def packageName (description : ClassDescription) : String :=
  Text.packageName description.name

/-- Declares an interface. -/
def isInterface (description : ClassDescription) : Bool :=
  AccessFlags.has description.flags AccessFlags.interfaceBit

/-- Visible everywhere. -/
def isPublic (description : ClassDescription) : Bool :=
  AccessFlags.has description.flags AccessFlags.publicBit

/-- Marked as deprecated. -/
def isDeprecated (description : ClassDescription) : Bool :=
  description.attributes.any Attribute.marksDeprecated

/-- The name of the source file, if it is recorded. -/
def sourceFile? (description : ClassDescription) : Option String :=
  description.attributes.findSome? Attribute.sourceFile?

/-- The first field of a name. -/
def field? (description : ClassDescription) (name : String) : Option Field :=
  description.fields.find? (·.name = name)

/-- The methods of a name, in order. -/
def methodsNamed (description : ClassDescription) (name : String) : List Method :=
  description.methods.filter (·.name = name)

/-- The superclass first, then the interfaces. -/
def supertypes (description : ClassDescription) : List String :=
  description.superclass.toList ++ description.interfaces

end ClassDescription

end ClassAtlas
