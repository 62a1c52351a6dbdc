import ClassAtlas.Text.Quoted

/-!
# Causes of rejection

A class file is rejected for exactly one cause, the first one met in reading
order. Every cause carries what its message shows.
-/

namespace ClassAtlas

/-- What a constant pool index was required to lead to. -/
inductive ConstantRole where
  /-- A text constant. -/
  | text
  /-- A class entry. -/
  | classEntry
  /-- A string entry. -/
  | stringEntry
  /-- A name together with a descriptor. -/
  | nameAndType
  /-- A reference to a field or method. -/
  | memberReference
  /-- A number or a string. -/
  | loadable
  deriving DecidableEq, Repr

/-- The word for a role in messages. -/
def ConstantRole.word : ConstantRole → String
  | text => "Utf8"
  | classEntry => "Class"
  | stringEntry => "String"
  | nameAndType => "NameAndType"
  | memberReference => "member reference"
  | loadable => "loadable"

/-- Ways in which bytes fail to have the shape a reader asks for. -/
inductive ShapeFault where
  /-- The bytes end inside a field. -/
  | endOfInput
  /-- No kind of element value has this tag. -/
  | unknownElementTag
  /-- Element values are nested too deeply. -/
  | nestingTooDeep
  deriving DecidableEq, Repr

/-- The word for a shape fault in messages. -/
def ShapeFault.word : ShapeFault → String
  | endOfInput => "End of file"
  | unknownElementTag => "Switch"
  | nestingTooDeep => "Too large"

/-- Why a byte string is not a class file. -/
inductive DecodeError where
  /-- The file starts with another magic number. -/
  | badMagic (found : UInt32)
  /-- The version is outside the supported range. -/
  | unsupportedVersion (major minor : UInt16)
  /-- The file ends inside the field that starts at an offset. -/
  | truncated (offset : Nat)
  /-- The pool declares no slot, not even the reserved one. -/
  | emptyConstantPool
  /-- A pool entry has a tag without meaning. -/
  | invalidConstantTag (tag : UInt8) (index : UInt16)
  /-- An index leads outside the pool. -/
  | badConstantIndex (index : UInt16)
  /-- An index leads to the second slot of a wide constant. -/
  | phantomSlot (index : UInt16)
  /-- An index leads to a constant of another kind. -/
  | constantMismatch (index : UInt16) (expected : ConstantRole)
  /-- The bytes of a text constant are no text. -/
  | invalidText (index : UInt16)
  /-- A known attribute is longer or shorter than declared. -/
  | attributeLength (name : String) (declared : UInt32)
  /-- A descriptor does not follow the grammar or needs too many slots. -/
  | invalidDescriptor (text : String)
  /-- Bytes follow the end of the class. -/
  | trailingBytes (count : Nat)
  /-- The bytes at an offset have no meaning. -/
  | malformed (offset : Nat) (fault : ShapeFault)
  deriving DecidableEq, Repr

/-- A number in base sixteen with eight digits at least. -/
def hexWord (n : Nat) : String :=
  let digits := Text.hexDigits n
  "0x" ++ String.ofList (List.replicate (8 - digits.length) '0' ++ digits)

/-- The text of a cause. -/
def DecodeError.message : DecodeError → String
  | badMagic found => "bad magic number " ++ hexWord found.toNat
  | unsupportedVersion major minor =>
    "unsupported class file version " ++ toString major.toNat ++ "." ++ toString minor.toNat
  | truncated offset => "class file truncated at offset " ++ toString offset
  | emptyConstantPool => "constant pool count must be at least 1"
  | invalidConstantTag tag index =>
    "invalid constant pool tag " ++ toString tag.toNat ++ " at index " ++ toString index.toNat
  | badConstantIndex index =>
    "constant pool index " ++ toString index.toNat ++ " is out of range"
  | phantomSlot index =>
    "constant pool index " ++ toString index.toNat
      ++ " is the unusable second slot of a wide constant"
  | constantMismatch index expected =>
    "constant pool entry " ++ toString index.toNat ++ " is not a " ++ expected.word
      ++ " constant"
  | invalidText index =>
    "constant pool entry " ++ toString index.toNat ++ " is not valid modified UTF-8"
  | attributeLength name declared =>
    "attribute " ++ name ++ " does not fill its declared length of "
      ++ toString declared.toNat ++ " bytes"
  | invalidDescriptor text => "invalid descriptor " ++ Text.quoted text
  | trailingBytes count => toString count ++ " trailing bytes after the class file"
  | malformed offset fault =>
    "malformed class file at offset " ++ toString offset ++ " (" ++ fault.word ++ ")"

end ClassAtlas
