import ClassAtlas.Library.Basic
import ClassAtlas.Types.Hierarchy

/-!
# The library index

The index holds the registered libraries in order of registration, and for every
class name the library that serves it: the earliest one that holds the class.
Registering a library gives it the names that nobody served; removing it hands
its names over to the earliest remaining library that holds them.
-/

namespace ClassAtlas

open Text

/-- Packages searched for simple names when none are given. -/
def standardPackages : List String := ["java.lang"]

/-- All registered libraries. -/
structure LibraryIndex where
  /-- The libraries in order of registration. -/
  libraries : List Library
  /-- The serving library by class name. -/
  owners : Table String LocationKey

namespace LibraryIndex

/-- The index without libraries. -/
def empty : LibraryIndex := ⟨[], .empty⟩

/-- The registered library of a location. -/
def libraryAt? (index : LibraryIndex) (key : LocationKey) : Option Library :=
  index.libraries.find? (·.key = key)

/-- Whether a location is registered. -/
def isRegistered (index : LibraryIndex) (location : Location) : Bool :=
  (index.libraryAt? location.key).isSome

/-- Adds an opened library, which serves the names that nobody served. -/
def add (index : LibraryIndex) (library : Library) : LibraryIndex :=
  { libraries := index.libraries ++ [library]
    owners := library.classNames.foldl
      (fun owners name => owners.insertNew name library.key) index.owners }

/-- Registers a location with its companion source location. A location that is
registered already or cannot be opened leaves the index alone. -/
def register (tree : FileTree) (index : LibraryIndex) (location : Location)
    (sourceLocation : Option SourceLocation) :
    Except RegistrationError (Library × LibraryIndex) :=
  if index.isRegistered location then .error (.alreadyRegistered location.path)
  else
    match Library.openAt tree location sourceLocation with
    | .error error => .error error
    | .ok library => .ok (library, index.add library)

/-- Hands a name over from a removed library to the earliest of the others that holds it;
the name is noted when it was served by the removed one. -/
def handOver (removed : LocationKey) (others : List Library)
    (state : List String × Table String LocationKey) (name : String) :
    List String × Table String LocationKey :=
  let (affected, owners) := state
  if owners.get? name = some removed then
    match others.find? (·.contains name) with
    | some successor => (name :: affected, owners.insert name successor.key)
    | none => (name :: affected, owners.erase name)
  else state

/-- Removes a location. The names whose serving library changed are listed in the order
in which the removed library enumerates them. -/
def remove (index : LibraryIndex) (location : Location) : List String × LibraryIndex :=
  match index.libraryAt? location.key with
  | none => ([], index)
  | some removed =>
    let others := index.libraries.filter (·.key ≠ location.key)
    let (affected, owners) :=
      removed.classNames.foldl (handOver removed.key others) ([], index.owners)
    (affected.reverse, ⟨others, owners⟩)

/-- Whether some library serves a name. -/
def contains (index : LibraryIndex) (qualified : String) : Bool :=
  index.owners.contains qualified

/-- The library that serves a name. -/
def owner? (index : LibraryIndex) (qualified : String) : Option Library :=
  (index.owners.get? qualified).bind index.libraryAt?

/-- Inserts a text into an ordered list. -/
def insertSorted (text : String) : List String → List String
  | [] => [text]
  | other :: rest => if other < text then other :: insertSorted text rest else text :: other :: rest

/-- The served classes directly inside a package, in order. -/
def classesInPackage (index : LibraryIndex) (package : String) : List String :=
  (index.owners.keys.filter (packageName · = package)).foldr insertSorted []

/-- The names under which a written name is looked up: as it is, and, for a simple name,
in the current package and in each default package. -/
def candidateNames (name currentPackage : String) (defaultPackages : List String) :
    List String :=
  if isQualified name then [name]
  else
    let packages := (currentPackage :: defaultPackages).filter (· ≠ "")
    (name :: packages.map (· ++ "." ++ name)).eraseDups

/-- The first of the candidate names that is served, with its library. -/
def served? (index : LibraryIndex) (name currentPackage : String)
    (defaultPackages : List String) : Option (String × Library) :=
  (candidateNames name currentPackage defaultPackages).findSome? fun candidate =>
    (index.owner? candidate).map fun library => (candidate, library)

/-- The class of a written name. -/
def lookupIn? (tree : FileTree) (index : LibraryIndex) (name currentPackage : String)
    (defaultPackages : List String) : Option ClassDescription :=
  match index.served? name currentPackage defaultPackages with
  | some (qualified, library) => library.class? tree qualified
  | none => none

/-- The index after a class of one of its libraries has been asked for. -/
def requestFrom (tree : FileTree) (index : LibraryIndex) (key : LocationKey)
    (qualified : String) : LibraryIndex :=
  { index with
    libraries := index.libraries.map fun library =>
      if library.key = key then library.request tree qualified else library }

/-- The index after a written name has been looked up. -/
def requestIn (tree : FileTree) (index : LibraryIndex) (name currentPackage : String)
    (defaultPackages : List String) : LibraryIndex :=
  match index.served? name currentPackage defaultPackages with
  | some (qualified, library) => index.requestFrom tree library.key qualified
  | none => index

/-- The class of a name, with the standard packages for a simple name. -/
def lookup? (tree : FileTree) (index : LibraryIndex) (name : String) :
    Option ClassDescription :=
  index.lookupIn? tree name "" standardPackages

/-- The index after a name has been looked up with the standard packages. -/
def request (tree : FileTree) (index : LibraryIndex) (name : String) : LibraryIndex :=
  index.requestIn tree name "" standardPackages

/-- The names under which served classes can be looked up. -/
def lookupNames (index : LibraryIndex) : List String :=
  index.owners.keys ++ index.owners.keys.map simpleName

end LibraryIndex

end ClassAtlas
