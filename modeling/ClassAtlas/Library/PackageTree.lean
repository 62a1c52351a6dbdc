import ClassAtlas.Text.Dotted

/-!
# Package trees

Qualified names fold into a tree of packages with classes at the leaves. On each
level the segments are ordered. A name is left out when one of its packages is a
class already, or when something is already where it belongs.
-/

namespace ClassAtlas

/-- A level of packages and classes, ordered by segment. -/
inductive PackageTree (α : Type) where
  /-- Nothing more on this level. -/
  | nil
  /-- A class with its slot, followed by the rest of the level. -/
  | leaf (segment : String) (slot : α) (rest : PackageTree α)
  /-- A package with its own level, followed by the rest of the level. -/
  | package (segment : String) (children rest : PackageTree α)
  deriving Repr, DecidableEq

/-- What a path leads to in a package tree. -/
inductive PackageNode (α : Type) where
  /-- A class with its slot. -/
  | leaf (slot : α)
  /-- A package with its level. -/
  | package (children : PackageTree α)
  deriving Repr, DecidableEq

namespace PackageTree

variable {α : Type}

/-- The level that holds a single class below its packages, in front of a given rest. -/
def chain (slot : α) (rest : PackageTree α) : (segments : List String) → PackageTree α
  | [] => rest
  | [segment] => leaf segment slot rest
  | segment :: others => package segment (chain slot nil others) rest

/-- Adds the class at a path of segments, if nothing is in its way. -/
def insertAt (slot : α) : (segments : List String) → PackageTree α → PackageTree α
  | segments, nil => chain slot nil segments
  | [], tree => tree
  | segment :: others, leaf other otherSlot rest =>
    if segment < other then chain slot (leaf other otherSlot rest) (segment :: others)
    else if segment = other then leaf other otherSlot rest
    else leaf other otherSlot (insertAt slot (segment :: others) rest)
  | segment :: others, package other children rest =>
    if segment < other then chain slot (package other children rest) (segment :: others)
    else if segment = other then
      match others with
      | [] => package other children rest
      | below => package other (insertAt slot below children) rest
    else package other children (insertAt slot (segment :: others) rest)

/-- Adds a class by its qualified name. -/
def insert (tree : PackageTree α) (qualified : String) (slot : α) : PackageTree α :=
  insertAt slot (Text.segments qualified) tree

/-- The node of a segment on a level. -/
def child? (segment : String) : PackageTree α → Option (PackageNode α)
  | nil => none
  | leaf other slot rest => if segment = other then some (.leaf slot) else child? segment rest
  | package other children rest =>
    if segment = other then some (.package children) else child? segment rest

/-- The node at a path of segments below a level. -/
def getAt? (tree : PackageTree α) : (segments : List String) → Option (PackageNode α)
  | [] => none
  | [segment] => tree.child? segment
  | segment :: others =>
    match tree.child? segment with
    | some (.package children) => getAt? children others
    | _ => none

/-- The node at a dotted path. -/
def get? (tree : PackageTree α) (path : String) : Option (PackageNode α) :=
  tree.getAt? (Text.segments path)

/-- Whether the tree holds nothing. -/
def isEmpty : PackageTree α → Bool
  | nil => true
  | _ => false

/-- A segment below a path; an empty path leaves the segment alone. -/
def childPath (path segment : String) : String :=
  if path = "" then segment else path ++ "." ++ segment

/-- The names of all classes of a level below a path, in order. -/
def classNamesBelow (path : String) : PackageTree α → List String
  | nil => []
  | leaf segment _ rest => childPath path segment :: classNamesBelow path rest
  | package segment children rest =>
    classNamesBelow (childPath path segment) children ++ classNamesBelow path rest

/-- The names of all classes in tree order. -/
def classNames (tree : PackageTree α) : List String :=
  tree.classNamesBelow ""

end PackageTree

end ClassAtlas
