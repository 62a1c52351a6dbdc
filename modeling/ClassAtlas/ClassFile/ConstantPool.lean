import ClassAtlas.ClassFile.DecodeError

/-!
# The constant pool

Everything a class file names, it names by an index into its constant pool.
Indices start at one; a long or double constant takes two slots, of which the
second is a phantom that no index may lead to. `ConstantPool.validate` accepts a
pool when every index stored in it leads to a constant of the kind it needs.
-/

namespace ClassAtlas

/-- The kinds of member references. -/
inductive MemberRefKind where
  /-- A field of a class or interface. -/
  | field
  /-- A method of a class. -/
  | method
  /-- A method of an interface. -/
  | interfaceMethod
  deriving DecidableEq, Repr

/-- An entry of the constant pool. Floating point numbers are kept as their bits. -/
inductive Constant where
  /-- A text. -/
  | utf8 (text : String)
  /-- A signed number of four bytes. -/
  | integer (value : Int32)
  /-- The bits of a single precision number. -/
  | float (bits : UInt32)
  /-- A signed number of eight bytes. -/
  | long (value : Int64)
  /-- The bits of a double precision number. -/
  | double (bits : UInt64)
  /-- A class, by the index of its name. -/
  | classEntry (nameIndex : UInt16)
  /-- A string, by the index of its text. -/
  | stringEntry (textIndex : UInt16)
  /-- A member of a class, by the indices of the class and of its name and type. -/
  | member (kind : MemberRefKind) (classIndex nameAndTypeIndex : UInt16)
  /-- A name and a descriptor, by their indices. -/
  | nameAndType (nameIndex descriptorIndex : UInt16)
  /-- A method handle, by its kind and the index of a member. -/
  | methodHandle (kind : UInt8) (referenceIndex : UInt16)
  /-- A method type, by the index of its descriptor. -/
  | methodType (descriptorIndex : UInt16)
  /-- A computed constant, by a bootstrap entry and the index of its name and type. -/
  | dynamic (bootstrapIndex nameAndTypeIndex : UInt16)
  /-- A computed call site, by a bootstrap entry and the index of its name and type. -/
  | invokeDynamic (bootstrapIndex nameAndTypeIndex : UInt16)
  /-- A module, by the index of its name. -/
  | moduleEntry (nameIndex : UInt16)
  /-- A package, by the index of its name. -/
  | packageEntry (nameIndex : UInt16)
  deriving DecidableEq, Repr

/-- Whether a constant takes two slots. -/
def Constant.isWide : Constant → Bool
  | long _ | double _ => true
  | _ => false

/-- A slot of the pool. -/
inductive PoolSlot where
  /-- A slot holding a constant. -/
  | usable (constant : Constant)
  /-- The second slot of a wide constant. -/
  | phantom
  deriving DecidableEq, Repr

/-- The constant pool of one class file; the slot of index one stands first. -/
structure ConstantPool where
  /-- All slots, phantoms included. -/
  slots : Array PoolSlot
  deriving DecidableEq, Repr

/-- A member reference with every index followed. -/
structure MemberRef where
  /-- What kind of member is referred to. -/
  kind : MemberRefKind
  /-- Internal name of the class. -/
  className : String
  /-- Name of the member. -/
  name : String
  /-- Descriptor of the member. -/
  descriptor : String
  deriving DecidableEq, Repr

namespace ConstantPool

/-- Number of slots, phantoms included. -/
def size (pool : ConstantPool) : Nat :=
  pool.slots.size

/-- The usable slots with their indices, in increasing order. -/
def entries (pool : ConstantPool) : List (UInt16 × Constant) :=
  (pool.slots.toList.zipIdx 1).filterMap fun
    | (.usable constant, index) => some (UInt16.ofNat index, constant)
    | (.phantom, _) => none

/-- The constant at an index. -/
def get (pool : ConstantPool) (index : UInt16) : Except DecodeError Constant :=
  if index = 0 then .error (.badConstantIndex index)
  else
    match pool.slots[index.toNat - 1]? with
    | none => .error (.badConstantIndex index)
    | some .phantom => .error (.phantomSlot index)
    | some (.usable constant) => .ok constant

/-- The text at an index. -/
def utf8 (pool : ConstantPool) (index : UInt16) : Except DecodeError String := do
  match ← pool.get index with
  | .utf8 text => .ok text
  | _ => .error (.constantMismatch index .text)

/-- The internal name of the class at an index. -/
def className (pool : ConstantPool) (index : UInt16) : Except DecodeError String := do
  match ← pool.get index with
  | .classEntry nameIndex => pool.utf8 nameIndex
  | _ => .error (.constantMismatch index .classEntry)

/-- The text of the string at an index. -/
def string (pool : ConstantPool) (index : UInt16) : Except DecodeError String := do
  match ← pool.get index with
  | .stringEntry textIndex => pool.utf8 textIndex
  | _ => .error (.constantMismatch index .stringEntry)

/-- The name and the descriptor at an index. -/
def nameAndType (pool : ConstantPool) (index : UInt16) :
    Except DecodeError (String × String) := do
  match ← pool.get index with
  | .nameAndType nameIndex descriptorIndex =>
    let name ← pool.utf8 nameIndex
    let descriptor ← pool.utf8 descriptorIndex
    .ok (name, descriptor)
  | _ => .error (.constantMismatch index .nameAndType)

/-- The member reference at an index; its name and type are followed before its class. -/
def memberRef (pool : ConstantPool) (index : UInt16) : Except DecodeError MemberRef := do
  match ← pool.get index with
  | .member kind classIndex nameAndTypeIndex =>
    let (name, descriptor) ← pool.nameAndType nameAndTypeIndex
    let className ← pool.className classIndex
    .ok { kind, className, name, descriptor }
  | _ => .error (.constantMismatch index .memberReference)

/-- Follows every index stored in a constant. -/
def validateConstant (pool : ConstantPool) : Constant → Except DecodeError Unit
  | .utf8 _ | .integer _ | .float _ | .long _ | .double _ => .ok ()
  | .classEntry index | .moduleEntry index | .packageEntry index | .stringEntry index
  | .methodType index => do
    let _ ← pool.utf8 index
    .ok ()
  | .member _ classIndex nameAndTypeIndex => do
    let _ ← pool.className classIndex
    let _ ← pool.nameAndType nameAndTypeIndex
    .ok ()
  | .nameAndType nameIndex descriptorIndex => do
    let _ ← pool.utf8 nameIndex
    let _ ← pool.utf8 descriptorIndex
    .ok ()
  | .methodHandle _ index => do
    let _ ← pool.memberRef index
    .ok ()
  | .dynamic _ index | .invokeDynamic _ index => do
    let _ ← pool.nameAndType index
    .ok ()

/-- Follows every index stored in a list of constants, up to the first failure. -/
def validateAll (pool : ConstantPool) : List (UInt16 × Constant) → Except DecodeError Unit
  | [] => .ok ()
  | (_, constant) :: rest =>
    match pool.validateConstant constant with
    | .ok _ => validateAll pool rest
    | .error error => .error error

/-- Accepts a pool when every stored index leads to a constant of the kind it needs. -/
def validate (pool : ConstantPool) : Except DecodeError Unit :=
  pool.validateAll pool.entries

end ConstantPool

end ClassAtlas
