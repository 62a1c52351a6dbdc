import ClassAtlas.Library.PackageTree
import ClassAtlas.Library.SourceText
import ClassAtlas.Table

/-!
# Libraries

A library is an opened location. Every enumerated class has a slot, which is
filled when the class is asked for the first time: with the decoded class, or
with a failure that is remembered. A slot stays unset while reading fails, so
that reading is tried again. The class table and the package tree lead to slots;
of several classes of one name the table keeps the last and the tree the first.
-/

namespace ClassAtlas

/-- What is known about a class of a library. -/
inductive ClassSlot where
  /-- The class was not asked for, or could not be read. -/
  | unset
  /-- The class has disappeared or cannot be decoded. -/
  | failed
  /-- The decoded class. -/
  | loaded (description : ClassDescription)

/-- The decoded class of a slot. -/
def ClassSlot.description? : ClassSlot → Option ClassDescription
  | loaded description => some description
  | _ => none

/-- A registered location with its classes. -/
structure Library where
  /-- Where the classes are. -/
  location : Location
  /-- Where the source files are, if anywhere. -/
  sourceLocation : Option SourceLocation
  /-- The opened classes. -/
  source : ClassSource
  /-- Slot numbers by class name. -/
  table : Table String Nat
  /-- Slot numbers by package. -/
  tree : PackageTree Nat
  /-- The slots by number. -/
  slots : Array ClassSlot

namespace Library

/-- The library of an opened location, with nothing asked for. -/
def ofSource (location : Location) (sourceLocation : Option SourceLocation)
    (source : ClassSource) : Library :=
  let numbered := source.names.zipIdx
  { location
    sourceLocation
    source
    table := numbered.foldl (fun table (name, slot) => table.insert name slot) .empty
    tree := numbered.foldl (fun tree (name, slot) => tree.insert name slot) .nil
    slots := Array.replicate numbered.length .unset }

/-- Opens a location as a library. -/
def openAt (tree : FileTree) (location : Location) (sourceLocation : Option SourceLocation) :
    Except RegistrationError Library :=
  (ClassSource.openLocation tree location).map (ofSource location sourceLocation)

/-- What tells the library apart from others. -/
def key (library : Library) : LocationKey :=
  library.location.key

/-- The class names in order of enumeration. -/
def classNames (library : Library) : List String :=
  library.source.names

/-- Whether the library holds a class. -/
def contains (library : Library) (qualified : String) : Bool :=
  library.table.contains qualified

/-- The state of a slot by its number. -/
def slot (library : Library) (number : Nat) : ClassSlot :=
  library.slots[number]?.getD .unset

/-- The decoded class of a node of the package tree, if it is a class that has been asked
for. -/
def loaded? (library : Library) : PackageNode Nat → Option ClassDescription
  | .leaf number => (library.slot number).description?
  | .package _ => none

/-- What reading a class makes of its slot. -/
def readSlot (tree : FileTree) (library : Library) (qualified : String) : ClassSlot :=
  match library.source.read tree qualified with
  | .content bytes =>
    match decode bytes with
    | .ok description => .loaded description
    | .error _ => .failed
  | .absent => .failed
  | .failed => .unset

/-- The slot of a class after it has been asked for. -/
def settledSlot (tree : FileTree) (library : Library) (qualified : String) (number : Nat) :
    ClassSlot :=
  match library.slot number with
  | .unset => library.readSlot tree qualified
  | known => known

/-- The class of a name, decoded now unless it is known already. -/
def class? (tree : FileTree) (library : Library) (qualified : String) :
    Option ClassDescription :=
  match library.table.get? qualified with
  | none => none
  | some number => (library.settledSlot tree qualified number).description?

/-- The library after a class has been asked for. -/
def request (tree : FileTree) (library : Library) (qualified : String) : Library :=
  match library.table.get? qualified with
  | none => library
  | some number =>
    { library with
      slots := library.slots.setIfInBounds number (library.settledSlot tree qualified number) }

end Library

end ClassAtlas
