import ClassAtlas.ClassFile.Decode
import ClassAtlas.Library.Location

/-!
# Class sources

Opening a location enumerates the classes it holds. The names stay fixed from
then on; bytes are read when a class is asked for. An archive keeps the content
it was opened with, while directories and class files are read from the tree as
it is at the time of reading.
-/

namespace ClassAtlas

open Text

/-- The class of an archive entry or file, by its path: `java/util/Map.class` gives
`java.util.Map`. Entries of other kinds, nameless ones, names with a hyphen and
everything below `META-INF` have no class. -/
def classNameOfEntry? (entry : String) : Option String :=
  match dropEnding? ".class" entry with
  | none => none
  | some stem =>
    let name := afterLast '/' stem.toList
    if name.isEmpty || name.contains '-' || "META-INF/".toList.isPrefixOf stem.toList then none
    else some (replaceMark '/' '.' stem)

/-- The path of the file for a class, with a given ending. -/
def entryNameOfClass (qualified ending : String) : String :=
  replaceMark '.' '/' qualified ++ ending

/-- What reading a class gives. -/
inductive ClassReading where
  /-- The bytes of the class. -/
  | content (bytes : Bytes)
  /-- The entry of the class has disappeared. -/
  | absent
  /-- Reading failed and may succeed later. -/
  | failed
  deriving DecidableEq, Repr

/-- The outcome of reading a class from a file. -/
def ClassReading.ofFile : FileReading → ClassReading
  | .content file => .content file.bytes
  | .missing => .absent
  | .failed => .failed

/-- The classes of a single path. -/
inductive SingleSource where
  /-- The entries an archive was opened with. -/
  | archive (entries : List ArchiveEntry)
  /-- The root of a directory tree and the classes found below it. -/
  | directory (root : String) (names : List String)
  /-- A class file and the class it declares. -/
  | classFile (path name : String)
  deriving DecidableEq, Repr

namespace SingleSource

/-- The class names in order of enumeration. -/
def names : SingleSource → List String
  | archive entries => entries.filterMap fun entry => classNameOfEntry? entry.name
  | directory _ names => names
  | classFile _ name => [name]

/-- The path opened for a class of a directory. -/
def classPath (root qualified : String) : String :=
  Path.join root (entryNameOfClass qualified ".class")

/-- Reads a class. -/
def read (tree : FileTree) (qualified : String) : SingleSource → ClassReading
  | archive entries =>
    match entries.find? (·.name = entryNameOfClass qualified ".class") with
    | none => .absent
    | some entry => if entry.corrupt then .failed else .content entry.content
  | directory root _ => .ofFile (tree.read (classPath root qualified))
  | classFile path name => if name ≠ qualified then .absent else .ofFile (tree.read path)

/-- The path of something below a directory, one name after the other. -/
def pathBelow (root : String) (way : List String) : String :=
  way.foldl Path.join root

/-- The class of something found below a directory. A directory is entered and has no
class, unless its path is too long to be followed: it then passes for a file, and
nothing in it is found. -/
def classNameBelow? (root : String) (way : List String) (node : FileNode) : Option String :=
  if !isFollowable (pathBelow root way.dropLast) then none
  else if node = .directory && isFollowable (pathBelow root way) then none
  else classNameOfEntry? (joined "/" way)

/-- The class names found below a directory, in order. -/
def directoryNames (tree : FileTree) (root : String) (place : List String) : List String :=
  (tree.below place).filterMap fun (way, node) => classNameBelow? root way node

/-- Opens an archive. -/
def openArchive (tree : FileTree) (path : String) : Except RegistrationError SingleSource :=
  match tree.locate path with
  | .missing => .error (.notFound path)
  | .unreachable => .error (.unreadable path)
  | .file (.archive entries) => .ok (.archive entries)
  | .directory _ | .file (.plain _) => .error (.invalidArchive path)

/-- Opens a directory. -/
def openDirectory (tree : FileTree) (path : String) : Except RegistrationError SingleSource :=
  match tree.locate path with
  | .missing => .error (.notFound path)
  | .unreachable | .file _ => .error (.unreadable path)
  | .directory place => .ok (.directory path (directoryNames tree path place))

/-- Opens a class file, whose name is taken from the class itself. -/
def openClassFile (tree : FileTree) (path : String) : Except RegistrationError SingleSource :=
  match tree.locate path with
  | .missing => .error (.notFound path)
  | .unreachable | .directory _ => .error (.unreadable path)
  | .file content =>
    match decode content.bytes with
    | .ok description => .ok (.classFile path description.name)
    | .error cause => .error (.invalidClassFile path cause)

/-- Opens a path as the kind of location that its extension suggests. -/
def openPath (tree : FileTree) (path : String) : Except RegistrationError SingleSource :=
  match (Location.ofPath path).kind with
  | .archive => openArchive tree path
  | .classFile => openClassFile tree path
  | .directory | .classpath => openDirectory tree path

end SingleSource

/-- The classes of a location. -/
inductive ClassSource where
  /-- The classes of one path. -/
  | single (source : SingleSource)
  /-- The classes of several paths, of which the first with a class provides it. -/
  | several (sources : List SingleSource)
  deriving DecidableEq, Repr

namespace ClassSource

/-- The class names in order of enumeration. -/
def names : ClassSource → List String
  | single source => source.names
  | several sources => (sources.flatMap SingleSource.names).eraseDups

/-- Reads a class. -/
def read (tree : FileTree) (qualified : String) : ClassSource → ClassReading
  | single source => source.read tree qualified
  | several sources =>
    match sources.find? (·.names.contains qualified) with
    | some source => source.read tree qualified
    | none => .absent

/-- Opens a location. The first path of a list that cannot be opened decides. -/
def openLocation (tree : FileTree) (location : Location) :
    Except RegistrationError ClassSource :=
  match location.kind with
  | .archive => (SingleSource.openArchive tree location.path).map single
  | .directory => (SingleSource.openDirectory tree location.path).map single
  | .classFile => (SingleSource.openClassFile tree location.path).map single
  | .classpath =>
    ((Location.listedPaths location.path).mapM (SingleSource.openPath tree)).map several

end ClassSource

end ClassAtlas
