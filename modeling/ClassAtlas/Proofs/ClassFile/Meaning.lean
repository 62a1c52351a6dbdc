import ClassAtlas.ClassFile.Description
import ClassAtlas.Proofs.ClassFile.RawClass
import ClassAtlas.Proofs.DescriptorGrammar
import ClassAtlas.Text.ModifiedUtf8
import Mathlib.Data.List.Forall2

/-!
# The meaning of raw class files

A well-formed raw class file describes one class. `RawClass.Means` relates the
two: every count fits into its field, every index leads to a constant of the
kind it needs, every descriptor can be read, and the description holds what the
indices lead to. Nothing here mentions a reader.
-/

namespace ClassAtlas

/-! ## Following indices -/

namespace ConstantPool

/-- Whether an index leads to a constant. Zero, indices beyond the last slot and phantom
slots lead nowhere. -/
def Holds (pool : ConstantPool) (index : UInt16) (constant : Constant) : Prop :=
  index ≠ 0 ∧ pool.slots[index.toNat - 1]? = some (.usable constant)

/-- Whether an index leads to a class of an internal name. -/
def HoldsClass (pool : ConstantPool) (index : UInt16) (internal : String) : Prop :=
  ∃ nameIndex, pool.Holds index (.classEntry nameIndex) ∧ pool.Holds nameIndex (.utf8 internal)

/-- Whether an index leads to a class of a qualified name. -/
def NamesClass (pool : ConstantPool) (index : UInt16) (qualified : String) : Prop :=
  ∃ internal, pool.HoldsClass index internal ∧ Text.internalToQualified internal = qualified

/-- Whether an index leads to a name and a descriptor. -/
def HoldsNameAndType (pool : ConstantPool) (index : UInt16) (name descriptor : String) : Prop :=
  ∃ nameIndex descriptorIndex, pool.Holds index (.nameAndType nameIndex descriptorIndex)
    ∧ pool.Holds nameIndex (.utf8 name) ∧ pool.Holds descriptorIndex (.utf8 descriptor)

/-- Whether an index leads to a member reference whose own indices lead on. -/
def HoldsMember (pool : ConstantPool) (index : UInt16) : Prop :=
  ∃ kind classIndex nameAndTypeIndex, pool.Holds index (.member kind classIndex nameAndTypeIndex)
    ∧ (∃ internal, pool.HoldsClass classIndex internal)
    ∧ ∃ name descriptor, pool.HoldsNameAndType nameAndTypeIndex name descriptor

/-- Whether every index stored in a constant leads to a constant of the kind it needs. -/
def Resolves (pool : ConstantPool) : Constant → Prop
  | .utf8 _ | .integer _ | .float _ | .long _ | .double _ => True
  | .classEntry index | .moduleEntry index | .packageEntry index | .stringEntry index
  | .methodType index => ∃ text, pool.Holds index (.utf8 text)
  | .member _ classIndex nameAndTypeIndex =>
    (∃ internal, pool.HoldsClass classIndex internal)
      ∧ ∃ name descriptor, pool.HoldsNameAndType nameAndTypeIndex name descriptor
  | .nameAndType nameIndex descriptorIndex =>
    (∃ name, pool.Holds nameIndex (.utf8 name))
      ∧ ∃ descriptor, pool.Holds descriptorIndex (.utf8 descriptor)
  | .methodHandle _ index => pool.HoldsMember index
  | .dynamic _ index | .invokeDynamic _ index =>
    ∃ name descriptor, pool.HoldsNameAndType index name descriptor

/-- Whether all constants of a pool resolve. -/
def CrossReferenced (pool : ConstantPool) : Prop :=
  ∀ constant, .usable constant ∈ pool.slots → pool.Resolves constant

/-- Whether an index leads to a number or a string of a value. -/
inductive Loads (pool : ConstantPool) (index : UInt16) : ConstantValue → Prop where
  /-- An integer. -/
  | int {value : Int32} : pool.Holds index (.integer value) → Loads pool index (.int value)
  /-- A single precision number. -/
  | float {bits : UInt32} : pool.Holds index (.float bits) → Loads pool index (.float bits)
  /-- A long integer. -/
  | long {value : Int64} : pool.Holds index (.long value) → Loads pool index (.long value)
  /-- A double precision number. -/
  | double {bits : UInt64} : pool.Holds index (.double bits) → Loads pool index (.double bits)
  /-- A string, whose text is led to in turn. -/
  | string {textIndex : UInt16} {text : String} : pool.Holds index (.stringEntry textIndex) →
      pool.Holds textIndex (.utf8 text) → Loads pool index (.string text)

/-- Whether an index leads to the descriptor of a field type. -/
def DescribesField (pool : ConstantPool) (index : UInt16) (type : FieldType) : Prop :=
  ∃ text, pool.Holds index (.utf8 text) ∧ type.Expressible ∧ text.toList = type.descriptor

/-- Whether an index leads to the descriptor of a result type. -/
def DescribesResult (pool : ConstantPool) (index : UInt16) (result : Option FieldType) : Prop :=
  ∃ text, pool.Holds index (.utf8 text) ∧ ResultExpressible result
    ∧ text.toList = resultDescriptor result

/-- Whether an index leads to the descriptor of a method type whose parameters, together
with a receiver unless the method is static, take at most 255 slots. -/
def DescribesMethod (pool : ConstantPool) (flags index : UInt16) (type : MethodType) : Prop :=
  (∃ text, pool.Holds index (.utf8 text) ∧ type.Expressible ∧ text.toList = type.descriptor)
    ∧ (if AccessFlags.has flags AccessFlags.staticBit then 0 else 1)
      + parameterSlots type.parameters ≤ 255

end ConstantPool

/-- An index of which zero stands for nothing. -/
def Optionally {α : Type} (index : UInt16) (leads : α → Prop) : Option α → Prop
  | none => index = 0
  | some value => index ≠ 0 ∧ leads value

/-! ## Annotations -/

/-- The tags of constant elements that are numbers or truth values. -/
def numberTags : List Char := ['B', 'C', 'D', 'F', 'I', 'J', 'S', 'Z']

/-- What a constant element means: a text by its own index, or a loaded value that takes
the kind of the tag. -/
def ConstantElementMeans (pool : ConstantPool) (tag : Char) (index : UInt16)
    (value : ConstantValue) : Prop :=
  (tag = 's' ∧ ∃ text, pool.Holds index (.utf8 text) ∧ value = .string text)
    ∨ (tag ∈ numberTags ∧ ∃ loaded, pool.Loads index loaded ∧ value = loaded.narrow tag)

/-- What an annotation means, given the meaning of its elements. -/
def AnnotationMeansBy (pool : ConstantPool) (element : RawElement → ElementValue → Prop)
    (typeIndex : UInt16) (raws : List (UInt16 × RawElement)) (value : AnnotationValue) : Prop :=
  pool.DescribesField typeIndex value.type ∧ Countable raws
    ∧ List.Forall₂ (fun raw named => pool.Holds raw.1 (.utf8 named.1) ∧ element raw.2 named.2)
      raws value.elements

/-- What an element means that may hold `room` levels of elements, itself included. -/
def ElementMeans (pool : ConstantPool) : (room : Nat) → RawElement → ElementValue → Prop
  | _ + 1, .constant tag index, .constant value => ConstantElementMeans pool tag index value
  | _ + 1, .enumeration typeIndex nameIndex, .enumeration typeName constantName =>
    pool.Holds typeIndex (.utf8 typeName) ∧ pool.Holds nameIndex (.utf8 constantName)
  | _ + 1, .classLiteral index, .classLiteral type => pool.DescribesResult index type
  | room + 1, .nested typeIndex raws, .nested value =>
    AnnotationMeansBy pool (ElementMeans pool room) typeIndex raws value
  | room + 1, .array raws, .array values =>
    Countable raws ∧ List.Forall₂ (ElementMeans pool room) raws values
  | _, _, _ => False

/-- What an annotation of a class, field or method means: elements are nested at most 64
levels deep. -/
def AnnotationMeans (pool : ConstantPool) (raw : RawAnnotation) (value : AnnotationValue) :
    Prop :=
  AnnotationMeansBy pool (ElementMeans pool 64) raw.typeIndex raw.elements value

/-! ## Attributes -/

/-- What a protected range means. -/
def HandlerMeans (pool : ConstantPool) (raw : RawHandler) (handler : ExceptionHandler) : Prop :=
  ∃ catchType, Optionally raw.catchIndex (pool.NamesClass raw.catchIndex) catchType
    ∧ handler = ⟨raw.startPc, raw.endPc, raw.handlerPc, catchType⟩

/-- What a local variable means. -/
def LocalVariableMeans (pool : ConstantPool) (raw : RawLocalVariable) (declared : LocalVariable) :
    Prop :=
  ∃ name type, pool.Holds raw.nameIndex (.utf8 name) ∧ pool.DescribesField raw.typeIndex type
    ∧ declared = ⟨raw.startPc, raw.length, name, type, raw.index⟩

/-- What a recorded parameter means. -/
def ParameterMeans (pool : ConstantPool) (raw : RawParameter) (parameter : RecordedParameter) :
    Prop :=
  ∃ name, Optionally raw.nameIndex (fun text => pool.Holds raw.nameIndex (.utf8 text)) name
    ∧ parameter = ⟨name, raw.flags⟩

/-- The names of the attributes whose content has a known form. -/
def knownAttributeNames : List String :=
  ["Code", "ConstantValue", "Deprecated", "Synthetic", "Signature", "SourceFile", "Exceptions",
    "LineNumberTable", "LocalVariableTable", "MethodParameters", "RuntimeVisibleAnnotations"]

/-- What a content means under the name of its attribute. Only a name without a known form
goes with bytes of any form. -/
inductive ContentMeans (pool : ConstantPool) : String → RawContent → Attribute → Prop where
  /-- A number or a string. -/
  | constantValue {index : UInt16} {value : ConstantValue} : pool.Loads index value →
      ContentMeans pool "ConstantValue" (.constantValue index) (.constantValue value)
  /-- A mark without content. -/
  | deprecated : ContentMeans pool "Deprecated" .deprecated .deprecated
  /-- A mark without content. -/
  | synthetic : ContentMeans pool "Synthetic" .synthetic .synthetic
  /-- A text. -/
  | signature {index : UInt16} {text : String} : pool.Holds index (.utf8 text) →
      ContentMeans pool "Signature" (.signature index) (.signature text)
  /-- A text. -/
  | sourceFile {index : UInt16} {name : String} : pool.Holds index (.utf8 name) →
      ContentMeans pool "SourceFile" (.sourceFile index) (.sourceFile name)
  /-- Classes. -/
  | exceptions {indices : List UInt16} {names : List String} : Countable indices →
      List.Forall₂ pool.NamesClass indices names →
      ContentMeans pool "Exceptions" (.exceptions indices) (.exceptions names)
  /-- Numbers that stand for themselves. -/
  | lineNumberTable {lines : List LineNumber} : Countable lines →
      ContentMeans pool "LineNumberTable" (.lineNumberTable lines) (.lineNumberTable lines)
  /-- Local variables. -/
  | localVariableTable {raws : List RawLocalVariable} {locals : List LocalVariable} :
      Countable raws → List.Forall₂ (LocalVariableMeans pool) raws locals →
      ContentMeans pool "LocalVariableTable" (.localVariableTable raws)
        (.localVariableTable locals)
  /-- Recorded parameters, counted in one byte. -/
  | methodParameters {raws : List RawParameter} {parameters : List RecordedParameter} :
      raws.length < 0x100 → List.Forall₂ (ParameterMeans pool) raws parameters →
      ContentMeans pool "MethodParameters" (.methodParameters raws)
        (.methodParameters parameters)
  /-- Annotations. -/
  | runtimeVisibleAnnotations {raws : List RawAnnotation} {values : List AnnotationValue} :
      Countable raws → List.Forall₂ (AnnotationMeans pool) raws values →
      ContentMeans pool "RuntimeVisibleAnnotations" (.runtimeVisibleAnnotations raws)
        (.runtimeVisibleAnnotations values)
  /-- Bytes that stand for themselves. -/
  | unknown {name : String} {content : Bytes} : name ∉ knownAttributeNames →
      ContentMeans pool name (.unknown content) (.unknown name content)

/-- What an attribute means. The length of its content fits into four bytes, and so does the
length of the instructions, which are part of it. -/
inductive AttributeMeans (pool : ConstantPool) : RawAttribute → Attribute → Prop where
  /-- A method body, whose attributes have a meaning in turn. -/
  | code {nameIndex maxStack maxLocals : UInt16} {instructions : Bytes}
      {rawHandlers : List RawHandler} {handlers : List ExceptionHandler}
      {raws : List RawAttribute} {values : List Attribute} :
      pool.Holds nameIndex (.utf8 "Code") →
      Countable rawHandlers → List.Forall₂ (HandlerMeans pool) rawHandlers handlers →
      Countable raws → List.Forall₂ (AttributeMeans pool) raws values →
      (RawAttribute.code nameIndex maxStack maxLocals instructions rawHandlers raws).contentBytes.length
        < 0x100000000 →
      AttributeMeans pool
        (.code nameIndex maxStack maxLocals instructions rawHandlers raws)
        (.code ⟨maxStack, maxLocals, instructions, handlers, values⟩)
  /-- Any other attribute. -/
  | plain {nameIndex : UInt16} {name : String} {content : RawContent} {value : Attribute} :
      pool.Holds nameIndex (.utf8 name) → ContentMeans pool name content value →
      content.bytes.length < 0x100000000 →
      AttributeMeans pool (.plain nameIndex content) value

/-- What a list of attributes means. -/
def AttributesMean (pool : ConstantPool) (raws : List RawAttribute) (values : List Attribute) :
    Prop :=
  Countable raws ∧ List.Forall₂ (AttributeMeans pool) raws values

/-! ## Classes -/

/-- What a field means. -/
structure FieldMeans (pool : ConstantPool) (raw : RawMember) (field : Field) : Prop where
  /-- All flag bits are kept. -/
  flags_eq : field.flags = raw.flags
  /-- The name is led to. -/
  name_held : pool.Holds raw.nameIndex (.utf8 field.name)
  /-- The type is described. -/
  type_described : pool.DescribesField raw.typeIndex field.type
  /-- The attributes have a meaning. -/
  attributes_mean : AttributesMean pool raw.attributes field.attributes

/-- What a method means. -/
structure MethodMeans (pool : ConstantPool) (raw : RawMember) (method : Method) : Prop where
  /-- All flag bits are kept. -/
  flags_eq : method.flags = raw.flags
  /-- The name is led to. -/
  name_held : pool.Holds raw.nameIndex (.utf8 method.name)
  /-- The type is described, and its parameters fit into the slots of a call. -/
  type_described : pool.DescribesMethod raw.flags raw.typeIndex method.type
  /-- The attributes have a meaning. -/
  attributes_mean : AttributesMean pool raw.attributes method.attributes

/-- What a constant means: a text is read from its bytes, anything else is kept. -/
def ConstantMeans : RawConstant → Constant → Prop
  | .text bytes, constant =>
    bytes.length < 0x10000 ∧ ∃ text, Text.decodeConstant? bytes = some text ∧ constant = .utf8 text
  | .entry kept _, constant => constant = kept

/-- What the constants of a file mean: each fills its slots, one after the other, and every
index stored in one of them leads on. -/
def PoolMeans (raws : List RawConstant) (pool : ConstantPool) : Prop :=
  (∃ constants, List.Forall₂ ConstantMeans raws constants
    ∧ pool.slots.toList = constants.flatMap Constant.slots)
    ∧ pool.CrossReferenced

/-- A raw class file is well formed and describes a class. -/
structure RawClass.Means (raw : RawClass) (description : ClassDescription) : Prop where
  /-- The major version is supported. -/
  version_supported : 45 ≤ raw.majorVersion ∧ raw.majorVersion ≤ 69
  /-- The version is kept. -/
  version_eq : description.majorVersion = raw.majorVersion
    ∧ description.minorVersion = raw.minorVersion
  /-- The number of slots plus one fits into two bytes. -/
  slots_countable : raw.slotCount + 1 < 0x10000
  /-- The constants fill the pool. -/
  pool_means : PoolMeans raw.constants description.pool
  /-- All flag bits are kept. -/
  flags_eq : description.flags = raw.flags
  /-- The class is named. -/
  name_named : description.pool.NamesClass raw.nameIndex description.name
  /-- The superclass is named, if there is one. -/
  superclass_named :
    Optionally raw.superIndex (description.pool.NamesClass raw.superIndex) description.superclass
  /-- The interfaces are named. -/
  interfaces_named : Countable raw.interfaceIndices
    ∧ List.Forall₂ description.pool.NamesClass raw.interfaceIndices description.interfaces
  /-- The fields have a meaning. -/
  fields_mean : Countable raw.fields
    ∧ List.Forall₂ (FieldMeans description.pool) raw.fields description.fields
  /-- The methods have a meaning. -/
  methods_mean : Countable raw.methods
    ∧ List.Forall₂ (MethodMeans description.pool) raw.methods description.methods
  /-- The attributes have a meaning. -/
  attributes_mean : AttributesMean description.pool raw.attributes description.attributes

end ClassAtlas
