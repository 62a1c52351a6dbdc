import ClassAtlas.ClassFile.Reader
import ClassAtlas.Storage.Path

/-!
# File trees

Libraries and source files live in a tree of directories and files, in which
relative paths start at a working directory. An archive is a file whose content
is an ordered list of named entries; an entry with a wrong checksum can be found
and not be read. A path is followed piece by piece: a missing piece makes it lead
nowhere, while a file in the place of a directory, an overlong name or a zero
character is a failure of its own.
-/

namespace ClassAtlas

/-- An entry of an archive. -/
structure ArchiveEntry where
  /-- The name of the entry, as written. -/
  name : String
  /-- The bytes of the entry. -/
  content : Bytes
  /-- Whether the checksum is wrong, so that reading fails. -/
  corrupt : Bool
  deriving DecidableEq, Repr

/-- What a file holds. -/
inductive FileContent where
  /-- Any bytes that are no archive. -/
  | plain (bytes : Bytes)
  /-- An archive, by its entries in order. -/
  | archive (entries : List ArchiveEntry)
  deriving DecidableEq, Repr

/-- The first bytes of every archive. -/
def archiveSignature : Bytes := [0x50, 0x4B]

/-- The bytes of a file; of an archive only its signature matters to anyone who reads it
as something else. -/
def FileContent.bytes : FileContent → Bytes
  | plain bytes => bytes
  | archive _ => archiveSignature

/-- A place in the tree. -/
inductive FileNode where
  /-- A directory. -/
  | directory
  /-- A file. -/
  | file (content : FileContent)
  deriving DecidableEq, Repr

/-- Directories and files; a place is the list of names on the way from the root. -/
structure FileTree where
  /-- Places below the root with what is there. -/
  nodes : List (List String × FileNode)
  /-- The place where relative paths start. -/
  workingDirectory : List String
  deriving DecidableEq, Repr

/-- Where a path leads. -/
inductive Located where
  /-- Nothing is there. -/
  | missing
  /-- The path cannot be followed. -/
  | unreachable
  /-- A directory, by its place. -/
  | directory (place : List String)
  /-- A file. -/
  | file (content : FileContent)
  deriving DecidableEq, Repr

/-- The longest name of a file, in bytes. -/
def maxNameLength : Nat := 255

/-- The longest path, in bytes. -/
def maxPathLength : Nat := 4095

/-- Whether a path is short enough to be followed. -/
def isFollowable (path : String) : Bool :=
  path.utf8ByteSize ≤ maxPathLength

namespace FileTree

/-- What is at a place; the root is always there. -/
def node? (tree : FileTree) (place : List String) : Option FileNode :=
  if place = [] then some .directory
  else (tree.nodes.find? (·.1 = place)).map (·.2)

/-- Follows the pieces of a path from a directory. -/
def follow (tree : FileTree) : (place pieces : List String) → Located
  | place, [] => .directory place
  | place, piece :: rest =>
    if !Path.isStep piece then follow tree place rest
    else if piece = ".." then follow tree place.dropLast rest
    else if maxNameLength < piece.utf8ByteSize then .unreachable
    else
      match tree.node? (place ++ [piece]) with
      | none => .missing
      | some .directory => follow tree (place ++ [piece]) rest
      | some (.file content) => if rest = [] then .file content else .unreachable

/-- The place where a path starts. -/
def startOf (tree : FileTree) (path : String) : List String :=
  if Path.isAbsolute path then [] else tree.workingDirectory

/-- Where a path leads. -/
def locate (tree : FileTree) (path : String) : Located :=
  if path.toList.contains (Char.ofNat 0) then .unreachable
  else if path = "" then .missing
  else if !isFollowable path then .unreachable
  else tree.follow (tree.startOf path) (Path.pieces path)

/-- Whether a path leads to a directory. -/
def isDirectory (tree : FileTree) (path : String) : Bool :=
  match tree.locate path with
  | .directory _ => true
  | _ => false

/-- Whether `place` is `directory` or below it. -/
def isWithin (directory place : List String) : Bool :=
  directory.isPrefixOf place

/-- The tree without a place and everything below it. -/
def removeAt (tree : FileTree) (place : List String) : FileTree :=
  { tree with nodes := tree.nodes.filter fun node => !isWithin place node.1 }

/-- The tree in which there is a directory at a place, unless something is there. -/
def ensureDirectory (tree : FileTree) (place : List String) : FileTree :=
  match tree.node? place with
  | some _ => tree
  | none => { tree with nodes := tree.nodes ++ [(place, .directory)] }

/-- The places on the way to a place, from the root. -/
def ancestors (place : List String) : List (List String) :=
  (List.range place.length).map place.take

/-- Puts something at a place: what was there is removed, and missing directories on the
way are made. -/
def writeAt (tree : FileTree) (place : List String) (node : FileNode) : FileTree :=
  let ready := (ancestors place).foldl ensureDirectory (tree.removeAt place)
  { ready with nodes := ready.nodes ++ [(place, node)] }

/-- The place that a path names, whatever is on the way. -/
def placeOf (tree : FileTree) (path : String) : List String :=
  ((Path.pieces path).filter Path.isStep).foldl
    (fun place piece => if piece = ".." then place.dropLast else place ++ [piece])
    (tree.startOf path)

/-- Puts something where a path leads. -/
def write (tree : FileTree) (path : String) (node : FileNode) : FileTree :=
  tree.writeAt (tree.placeOf path) node

/-- Removes what a path leads to, with everything below it. -/
def delete (tree : FileTree) (path : String) : FileTree :=
  tree.removeAt (tree.placeOf path)

/-- The tree that holds nothing but a working directory. -/
def emptyAt (workingDirectory : List String) : FileTree :=
  (⟨[], workingDirectory⟩ : FileTree).writeAt workingDirectory .directory

/-- Inserts an item into a list that is ordered by names. -/
def insertOrdered {α : Type} (item : List String × α) :
    List (List String × α) → List (List String × α)
  | [] => [item]
  | other :: rest =>
    if other.1 < item.1 then other :: insertOrdered item rest else item :: other :: rest

/-- Everything below a directory with the names on the way from there, ordered by names:
what is in a subdirectory stands together behind it. -/
def below (tree : FileTree) (directory : List String) : List (List String × FileNode) :=
  tree.nodes.foldr
    (fun (place, node) ordered =>
      if isWithin directory place && directory.length < place.length then
        insertOrdered (place.drop directory.length, node) ordered
      else ordered)
    []

end FileTree

/-- What reading a file gives. -/
inductive FileReading where
  /-- The content of the file. -/
  | content (content : FileContent)
  /-- There is no file. -/
  | missing
  /-- The file cannot be read. -/
  | failed
  deriving DecidableEq, Repr

/-- Reads the file a path leads to; a directory cannot be read. -/
def FileTree.read (tree : FileTree) (path : String) : FileReading :=
  match tree.locate path with
  | .missing => .missing
  | .unreachable => .failed
  | .directory _ => .failed
  | .file content => .content content

end ClassAtlas
