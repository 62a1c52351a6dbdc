import ClassAtlas.Library.ClassSource
import ClassAtlas.Text.Utf8

/-!
# Source texts

A library may have a companion location with its source files, which is
consulted for documentation only. A nested class is declared in the file of its
outermost class.
-/

namespace ClassAtlas

open Text

/-- Where the source files of a library are. -/
inductive SourceLocation where
  /-- The root of a directory tree. -/
  | directory (path : String)
  /-- An archive. -/
  | archive (path : String)
  deriving DecidableEq, Repr

/-- Why a source text cannot be had. -/
inductive SourceError where
  /-- Reading failed. -/
  | unreadable
  /-- The file is no archive. -/
  | invalidArchive
  deriving DecidableEq, Repr

namespace SourceLocation

/-- A path that leads to a directory is a directory, any other path an archive. -/
def ofPath (tree : FileTree) (path : String) : SourceLocation :=
  if tree.isDirectory path then directory path else archive path

/-- The name of the outermost class around a class. -/
def outermost (qualified : String) : String :=
  String.ofList (qualified.toList.takeWhile (· ≠ '$'))

/-- The path of the source file that declares a class, from the root of the sources. -/
def sourceEntry (qualified : String) : String :=
  entryNameOfClass (outermost qualified) ".java"

/-- The text of a source file in a directory, which has to be well formed. -/
def textOfFile : FileReading → Except SourceError (Option String)
  | .content (.plain bytes) =>
    match decodeUtf8? bytes with
    | some text => .ok (some text)
    | none => .error .unreadable
  | .content (.archive _) => .error .unreadable
  | .missing => .ok none
  | .failed => .error .unreadable

/-- The source text that declares a class, none if there is no such file. Texts in
archives may be ill formed. -/
def readSource (tree : FileTree) (qualified : String) :
    SourceLocation → Except SourceError (Option String)
  | directory root => textOfFile (tree.read (Path.join root (sourceEntry qualified)))
  | archive path =>
    match tree.locate path with
    | .missing | .unreachable => .error .unreadable
    | .directory _ | .file (.plain _) => .error .invalidArchive
    | .file (.archive entries) =>
      match entries.find? (·.name = sourceEntry qualified) with
      | none => .ok none
      | some entry =>
        if entry.corrupt then .error .unreadable
        else .ok (some (decodeUtf8Lossy entry.content))

end SourceLocation

end ClassAtlas
