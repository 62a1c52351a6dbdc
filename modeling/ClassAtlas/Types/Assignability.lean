import ClassAtlas.Types.Hierarchy
import ClassAtlas.Walk

/-!
# Assignability

A value of one type may be assigned to another without conversion when the types
are equal, when the target is reached by supertypes, or when both are arrays of
assignable elements. Primitive types are assignable to themselves only, and
arrays besides to the three types every array belongs to.
-/

namespace ClassAtlas

/-- An assignability question after the rules for primitive types and arrays. -/
inductive AssignmentCase where
  /-- The rules give the answer. -/
  | settled (answer : Bool)
  /-- The answer depends on the supertypes of a class. -/
  | search (source target : String)
  deriving DecidableEq, Repr

/-- The types every array can be assigned to. -/
def arraySupertypes : List String :=
  [PlatformName.object, PlatformName.cloneable, PlatformName.serializable]

/-- Takes equal array dimensions off both types, `limit` at most, and applies the rules. -/
def assignmentCase : (limit : Nat) → (source target : String) → AssignmentCase
  | limit, source, target =>
    if source = target then .settled true
    else if isPrimitiveName source || isPrimitiveName target then .settled false
    else
      match elementName? source, elementName? target with
      | some sourceElement, some targetElement =>
        if isPrimitiveName sourceElement || isPrimitiveName targetElement then
          .settled (sourceElement = targetElement)
        else
          match limit with
          | 0 => .settled false
          | limit + 1 => assignmentCase limit sourceElement targetElement
      | some _, none => .settled (arraySupertypes.contains target)
      | none, some _ => .settled false
      | none, none =>
        if target = PlatformName.object then .settled true else .search source target

namespace Hierarchy

/-- A name and everything above it, in search order: the last supertype first. -/
def ancestry (hierarchy : Hierarchy) (name : String) : List String :=
  Walk.visits id (fun name => (hierarchy.parents name).reverse) hierarchy.parentNames.length
    [name]

/-- Whether some name above `source`, or `source` itself, has `target` as a parent. -/
def reaches (hierarchy : Hierarchy) (source target : String) : Bool :=
  (hierarchy.ancestry source).any fun name => (hierarchy.parents name).contains target

/-- Whether a value of type `source` can be assigned to `target` without conversion. -/
def isAssignable (hierarchy : Hierarchy) (source target : String) : Bool :=
  match assignmentCase source.length source target with
  | .settled answer => answer
  | .search source target => hierarchy.reaches source target

/-- The names whose supertypes are needed to answer a question, in order. -/
def consulted (hierarchy : Hierarchy) (source target : String) : List String :=
  match assignmentCase source.length source target with
  | .settled _ => []
  | .search source target =>
    Walk.upToFirst (fun name => (hierarchy.parents name).contains target)
      (hierarchy.ancestry source)

end Hierarchy

end ClassAtlas
