import ClassAtlas.ClassFile.Attribute
import ClassAtlas.ClassFile.ConstantPool
import Mathlib.Algebra.Ring.Nat

/-!
# Raw class files

A raw class file is the syntax of the format before any index is followed: texts
are still bytes, names, types and values are still indices into the constant
pool. `RawClass.bytes` writes it down, most significant bytes first, with every
count and every length filled in.
-/

namespace ClassAtlas

/-- A number in a given count of bytes, most significant first. -/
def bigEndianBytes : (width : Nat) → (value : Nat) → Bytes
  | 0, _ => []
  | width + 1, value => bigEndianBytes width (value / 0x100) ++ [UInt8.ofNat value]

/-- A number in two bytes. -/
def u2Bytes (value : UInt16) : Bytes := bigEndianBytes 2 value.toNat

/-- A number in four bytes. -/
def u4Bytes (value : UInt32) : Bytes := bigEndianBytes 4 value.toNat

/-- A number in eight bytes. -/
def u8Bytes (value : UInt64) : Bytes := bigEndianBytes 8 value.toNat

/-- Items one after the other behind their number in two bytes. -/
def countedBytes {ρ : Type} (write : ρ → Bytes) (items : List ρ) : Bytes :=
  bigEndianBytes 2 items.length ++ items.flatMap write

/-- Whether the number of some items can be told in two bytes. -/
def Countable {ρ : Type} (items : List ρ) : Prop :=
  items.length < 0x10000

/-! ## Constants -/

namespace Constant

/-- Whether a constant is a text. -/
def isText : Constant → Bool
  | utf8 _ => true
  | _ => false

/-- The tag that tells the kind of a constant. -/
def tag : Constant → UInt8
  | utf8 _ => 1
  | integer _ => 3
  | float _ => 4
  | long _ => 5
  | double _ => 6
  | classEntry _ => 7
  | stringEntry _ => 8
  | member .field _ _ => 9
  | member .method _ _ => 10
  | member .interfaceMethod _ _ => 11
  | nameAndType _ _ => 12
  | methodHandle _ _ => 15
  | methodType _ => 16
  | dynamic _ _ => 17
  | invokeDynamic _ _ => 18
  | moduleEntry _ => 19
  | packageEntry _ => 20

/-- What follows the tag of a constant; texts are written from their own bytes. -/
def payload : Constant → Bytes
  | utf8 _ => []
  | integer value => u4Bytes value.toUInt32
  | float bits => u4Bytes bits
  | long value => u8Bytes value.toUInt64
  | double bits => u8Bytes bits
  | classEntry index | stringEntry index | methodType index | moduleEntry index
  | packageEntry index => u2Bytes index
  | member _ first second | nameAndType first second | dynamic first second
  | invokeDynamic first second => u2Bytes first ++ u2Bytes second
  | methodHandle kind index => kind :: u2Bytes index

/-- The slots that a constant fills. -/
def slots (constant : Constant) : List PoolSlot :=
  if constant.isWide then [.usable constant, .phantom] else [.usable constant]

end Constant

/-- A constant as it stands in the file: a text by its bytes, anything else as it is. -/
inductive RawConstant where
  /-- The bytes of a text. -/
  | text (bytes : Bytes)
  /-- A number, or a constant made of indices. -/
  | entry (constant : Constant) (plain : constant.isText = false)

/-- A constant with its tag; the length of a text stands in front of it. -/
def RawConstant.bytes : RawConstant → Bytes
  | text bytes => 1 :: (bigEndianBytes 2 bytes.length ++ bytes)
  | entry constant _ => constant.tag :: constant.payload

/-- The number of slots that a constant fills. -/
def RawConstant.slotCount : RawConstant → Nat
  | text _ => 1
  | entry constant _ => if constant.isWide then 2 else 1

/-! ## Annotations -/

/-- The value of an annotation element, by indices. -/
inductive RawElement where
  /-- A number, a truth value or a text, by its tag and its index. -/
  | constant (tag : Char) (index : UInt16)
  /-- A constant of an enumeration. -/
  | enumeration (typeIndex nameIndex : UInt16)
  /-- A class literal. -/
  | classLiteral (index : UInt16)
  /-- An annotation as a value: its type, and its elements behind their names. -/
  | nested (typeIndex : UInt16) (elements : List (UInt16 × RawElement))
  /-- A list of values. -/
  | array (values : List RawElement)

/-- The byte of a tag. -/
def tagByte (tag : Char) : UInt8 := UInt8.ofNat tag.toNat

/-- The tag of an element and what belongs to it. -/
def RawElement.bytes : RawElement → Bytes
  | constant tag index => tagByte tag :: u2Bytes index
  | enumeration typeIndex nameIndex => tagByte 'e' :: (u2Bytes typeIndex ++ u2Bytes nameIndex)
  | classLiteral index => tagByte 'c' :: u2Bytes index
  | nested typeIndex elements =>
    tagByte '@' :: (u2Bytes typeIndex ++ (bigEndianBytes 2 elements.length
      ++ elements.flatMap fun element => u2Bytes element.1 ++ element.2.bytes))
  | array values =>
    tagByte '[' :: (bigEndianBytes 2 values.length ++ values.flatMap RawElement.bytes)
termination_by element => sizeOf element
decreasing_by
  · have hlt := List.sizeOf_lt_of_mem ‹element ∈ elements›
    cases element
    simp_wf
    simp only [Prod.mk.sizeOf_spec] at hlt
    omega
  · have hlt := List.sizeOf_lt_of_mem ‹_ ∈ values›
    simp_wf
    omega

/-- A type applied as an annotation, by indices. -/
structure RawAnnotation where
  /-- Index of the descriptor of the annotation type. -/
  typeIndex : UInt16
  /-- The elements behind the indices of their names. -/
  elements : List (UInt16 × RawElement)

/-- An annotation: its type, and its elements in order. -/
def RawAnnotation.bytes (raw : RawAnnotation) : Bytes :=
  u2Bytes raw.typeIndex
    ++ countedBytes (fun element => u2Bytes element.1 ++ element.2.bytes) raw.elements

/-! ## Attributes -/

/-- A protected range of a method body, by indices. -/
structure RawHandler where
  /-- First protected instruction. -/
  startPc : UInt16
  /-- End of the protected range. -/
  endPc : UInt16
  /-- First instruction of the handler. -/
  handlerPc : UInt16
  /-- Index of the caught class; zero catches everything. -/
  catchIndex : UInt16

/-- The four numbers of a protected range. -/
def RawHandler.bytes (raw : RawHandler) : Bytes :=
  u2Bytes raw.startPc ++ (u2Bytes raw.endPc ++ (u2Bytes raw.handlerPc ++ u2Bytes raw.catchIndex))

/-- The two numbers of a line. -/
def LineNumber.bytes (line : LineNumber) : Bytes :=
  u2Bytes line.startPc ++ u2Bytes line.line

/-- A local variable, by indices. -/
structure RawLocalVariable where
  /-- First instruction of its scope. -/
  startPc : UInt16
  /-- Length of its scope. -/
  length : UInt16
  /-- Index of its name. -/
  nameIndex : UInt16
  /-- Index of its descriptor. -/
  typeIndex : UInt16
  /-- Its slot. -/
  index : UInt16

/-- The five numbers of a local variable. -/
def RawLocalVariable.bytes (raw : RawLocalVariable) : Bytes :=
  u2Bytes raw.startPc ++ (u2Bytes raw.length ++ (u2Bytes raw.nameIndex
    ++ (u2Bytes raw.typeIndex ++ u2Bytes raw.index)))

/-- A recorded parameter, by the index of its name. -/
structure RawParameter where
  /-- Index of its name; zero stands for none. -/
  nameIndex : UInt16
  /-- Its flag bits. -/
  flags : UInt16

/-- The two numbers of a recorded parameter. -/
def RawParameter.bytes (raw : RawParameter) : Bytes :=
  u2Bytes raw.nameIndex ++ u2Bytes raw.flags

/-- The content of an attribute that holds no attributes in turn. -/
inductive RawContent where
  /-- The index of a constant. -/
  | constantValue (index : UInt16)
  /-- Nothing. -/
  | deprecated
  /-- Nothing. -/
  | synthetic
  /-- The index of a generic signature. -/
  | signature (index : UInt16)
  /-- The index of the name of a source file. -/
  | sourceFile (index : UInt16)
  /-- The indices of the declared exceptions. -/
  | exceptions (indices : List UInt16)
  /-- Lines of instructions. -/
  | lineNumberTable (lines : List LineNumber)
  /-- Local variables of a body. -/
  | localVariableTable (locals : List RawLocalVariable)
  /-- Recorded parameters of a method. -/
  | methodParameters (parameters : List RawParameter)
  /-- Annotations visible at run time. -/
  | runtimeVisibleAnnotations (values : List RawAnnotation)
  /-- Bytes without a known form. -/
  | unknown (content : Bytes)

/-- The bytes of a content; recorded parameters are counted in one byte. -/
def RawContent.bytes : RawContent → Bytes
  | constantValue index | signature index | sourceFile index => u2Bytes index
  | deprecated | synthetic => []
  | exceptions indices => countedBytes u2Bytes indices
  | lineNumberTable lines => countedBytes LineNumber.bytes lines
  | localVariableTable locals => countedBytes RawLocalVariable.bytes locals
  | methodParameters parameters =>
    bigEndianBytes 1 parameters.length ++ parameters.flatMap RawParameter.bytes
  | runtimeVisibleAnnotations values => countedBytes RawAnnotation.bytes values
  | unknown content => content

/-- An attribute: the index of its name and its content. -/
inductive RawAttribute where
  /-- The body of a method, with attributes of its own. -/
  | code (nameIndex maxStack maxLocals : UInt16) (instructions : Bytes)
    (handlers : List RawHandler) (attributes : List RawAttribute)
  /-- Any other attribute. -/
  | plain (nameIndex : UInt16) (content : RawContent)

namespace RawAttribute

/-- The index of the name of an attribute. -/
def nameIndex : RawAttribute → UInt16
  | code nameIndex _ _ _ _ _ => nameIndex
  | plain nameIndex _ => nameIndex

/-- A content behind the index of its name and its length. -/
def framed (nameIndex : UInt16) (content : Bytes) : Bytes :=
  u2Bytes nameIndex ++ (bigEndianBytes 4 content.length ++ content)

/-- The content of an attribute. -/
def contentBytes : RawAttribute → Bytes
  | code _ maxStack maxLocals instructions handlers attributes =>
    u2Bytes maxStack ++ (u2Bytes maxLocals ++ (bigEndianBytes 4 instructions.length ++ (instructions
      ++ (countedBytes RawHandler.bytes handlers ++ (bigEndianBytes 2 attributes.length
        ++ attributes.flatMap fun inner => framed inner.nameIndex inner.contentBytes)))))
  | plain _ content => content.bytes
termination_by raw => sizeOf raw
decreasing_by
  have hlt := List.sizeOf_lt_of_mem ‹inner ∈ attributes›
  simp_wf
  omega

/-- A whole attribute. -/
def bytes (raw : RawAttribute) : Bytes :=
  framed raw.nameIndex raw.contentBytes

end RawAttribute

/-! ## Classes -/

/-- A field or method, by indices. -/
structure RawMember where
  /-- All sixteen flag bits. -/
  flags : UInt16
  /-- Index of the name. -/
  nameIndex : UInt16
  /-- Index of the descriptor. -/
  typeIndex : UInt16
  /-- The attributes in order. -/
  attributes : List RawAttribute

/-- A field or method: flags, name, descriptor and attributes. -/
def RawMember.bytes (raw : RawMember) : Bytes :=
  u2Bytes raw.flags ++ (u2Bytes raw.nameIndex ++ (u2Bytes raw.typeIndex
    ++ countedBytes RawAttribute.bytes raw.attributes))

/-- A class file before any index is followed. -/
structure RawClass where
  /-- Minor format version. -/
  minorVersion : UInt16
  /-- Major format version. -/
  majorVersion : UInt16
  /-- The constants in order, without the phantom slots. -/
  constants : List RawConstant
  /-- All sixteen flag bits. -/
  flags : UInt16
  /-- Index of the class itself. -/
  nameIndex : UInt16
  /-- Index of the superclass; zero stands for none. -/
  superIndex : UInt16
  /-- Indices of the interfaces, in order. -/
  interfaceIndices : List UInt16
  /-- The fields in order. -/
  fields : List RawMember
  /-- The methods in order. -/
  methods : List RawMember
  /-- The attributes of the class. -/
  attributes : List RawAttribute

namespace RawClass

/-- The number of slots of the pool, phantoms included. -/
def slotCount (raw : RawClass) : Nat :=
  (raw.constants.map RawConstant.slotCount).sum

/-- The magic number, the version and the constants; the pool is preceded by the number of
its slots plus one. -/
def headBytes (raw : RawClass) : Bytes :=
  u4Bytes 0xCAFEBABE ++ (u2Bytes raw.minorVersion ++ (u2Bytes raw.majorVersion
    ++ (bigEndianBytes 2 (raw.slotCount + 1) ++ raw.constants.flatMap RawConstant.bytes)))

/-- What follows the constants: the class itself, its members and its attributes. -/
def bodyBytes (raw : RawClass) : Bytes :=
  u2Bytes raw.flags ++ (u2Bytes raw.nameIndex ++ (u2Bytes raw.superIndex
    ++ (countedBytes u2Bytes raw.interfaceIndices ++ (countedBytes RawMember.bytes raw.fields
      ++ (countedBytes RawMember.bytes raw.methods
        ++ countedBytes RawAttribute.bytes raw.attributes)))))

/-- A whole class file. -/
def bytes (raw : RawClass) : Bytes :=
  raw.headBytes ++ raw.bodyBytes

end RawClass

end ClassAtlas
