import ClassAtlas.ClassFile.DecodeError
import ClassAtlas.Storage.FileTree

/-!
# Locations

A library is registered by the location of its classes: an archive, a directory
laid out by packages, a single class file, or a list of such paths. Locations
are told apart by their kind and the parts of their path, and shown as given.
-/

namespace ClassAtlas

/-- The kinds of locations. -/
inductive LocationKind where
  /-- An archive of class files. -/
  | archive
  /-- The root of a directory tree of class files. -/
  | directory
  /-- A list of paths divided by colons. -/
  | classpath
  /-- A single class file. -/
  | classFile
  deriving DecidableEq, Repr

/-- Where the classes of a library are. -/
structure Location where
  /-- What kind of place it is. -/
  kind : LocationKind
  /-- The path, or the list of paths, as given. -/
  path : String
  deriving DecidableEq, Repr

/-- What tells locations apart. -/
structure LocationKey where
  /-- The kind of the location. -/
  kind : LocationKind
  /-- The parts of its path; a list of paths counts as it is written. -/
  parts : List String
  deriving DecidableEq, Repr

namespace Location

/-- What tells a location apart from others. -/
def key (location : Location) : LocationKey :=
  match location.kind with
  | .classpath => ⟨.classpath, [location.path]⟩
  | kind => ⟨kind, Path.parts location.path⟩

/-- The kind of location a path suggests by its extension; anything else is a directory. -/
def ofPath (path : String) : Location :=
  match Path.extension? path with
  | some ext =>
    let lowered := ext.toList.map Char.toLower
    if lowered = "jar".toList || lowered = "zip".toList then ⟨.archive, path⟩
    else if ext = "class" then ⟨.classFile, path⟩
    else ⟨.directory, path⟩
  | none => ⟨.directory, path⟩

/-- The paths of a list, empty ones left out. -/
def listedPaths (list : String) : List String :=
  ((Text.splitAtMark ':' list.toList).map String.ofList).filter (· ≠ "")

/-- The kind and the path. -/
def display (location : Location) : String :=
  match location.kind with
  | .archive => "archive " ++ location.path
  | .directory => "directory " ++ location.path
  | .classpath => "classpath " ++ location.path
  | .classFile => "class file " ++ location.path

end Location

/-- Why a location cannot be registered. -/
inductive RegistrationError where
  /-- Nothing is at the path. -/
  | notFound (path : String)
  /-- The path cannot be followed, listed or read. -/
  | unreadable (path : String)
  /-- The file is no archive. -/
  | invalidArchive (path : String)
  /-- The file is no class file. -/
  | invalidClassFile (path : String) (cause : DecodeError)
  /-- The location is registered already. -/
  | alreadyRegistered (path : String)
  deriving DecidableEq, Repr

/-- The text of the error. -/
def RegistrationError.message : RegistrationError → String
  | notFound path => "library location " ++ path ++ " does not exist"
  | unreadable path => "library location " ++ path ++ " is not readable"
  | invalidArchive path => path ++ " is not a readable archive"
  | invalidClassFile path _ => path ++ " is not a valid class file"
  | alreadyRegistered path => "library location " ++ path ++ " is already registered"

end ClassAtlas
