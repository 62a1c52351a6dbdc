import ClassAtlas.Text.Dotted

/-!
# Paths

A path is kept and shown as it was given. Two paths are the same when they have
the same parts: empty parts and parts that stay in place are dropped, except for
one that leads a relative path. Joining an absolute path to a base leaves the
base out.
-/

namespace ClassAtlas.Path

open Text

/-- The pieces of a path between its slashes. -/
def pieces (path : String) : List String :=
  (splitAtMark '/' path.toList).map String.ofList

/-- Whether a path starts at the root of the file system. -/
def isAbsolute (path : String) : Bool :=
  path.toList.head? = some '/'

/-- Pieces that lead somewhere. -/
def isStep (piece : String) : Bool :=
  piece ≠ "" && piece ≠ "."

/-- The parts by which paths are compared. -/
def parts (path : String) : List String :=
  if isAbsolute path then "/" :: (pieces path).filter isStep
  else
    match pieces path with
    | "." :: rest => "." :: rest.filter isStep
    | all => all.filter isStep

/-- The name of the file a path leads to, unless it ends in no name. -/
def fileName? (path : String) : Option String :=
  match (parts path).getLast? with
  | some name => if name = "/" || name = "." || name = ".." then none else some name
  | none => none

/-- What follows the last point of the file name; a point that starts the name does not
count. -/
def extension? (path : String) : Option String :=
  match fileName? path with
  | none => none
  | some name =>
    if name.toList.contains '.' && !(beforeLast '.' name.toList).isEmpty then
      some (String.ofList (afterLast '.' name.toList))
    else none

/-- A path taken relative to a base. -/
def join (base relative : String) : String :=
  if isAbsolute relative then relative
  else if base = "" || base.toList.getLast? = some '/' then base ++ relative
  else base ++ "/" ++ relative

end ClassAtlas.Path
