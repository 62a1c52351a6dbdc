import ClassAtlas.Types.AliasRegistry
import ClassAtlas.Types.Inquiry

/-!
# Conversion scores

Passing an argument of one type to a parameter of another has a score, and the
lower score is the better conversion. The score depends on the kind of the
argument as a dynamic caller sees it; `noMatch` stands for no conversion at all.
-/

namespace ClassAtlas

/-- The score of an argument or candidate that cannot be converted. -/
def noMatch : Nat := 999

/-- The kinds of arguments. -/
inductive ArgumentKind where
  /-- Nothing is known about the argument. -/
  | undefined
  /-- A truth value. -/
  | boolean
  /-- A number. -/
  | numeric
  /-- A text. -/
  | textual
  /-- An array. -/
  | array
  /-- Anything else. -/
  | object
  deriving DecidableEq, Repr

/-- Argument types that say nothing. -/
def undefinedNames : List String := ["any", "undefined", ""]

/-- The preference among primitive parameter types, from `double` on. -/
def sizeRank (formal : String) : Nat :=
  match formal with
  | "double" => 1
  | "float" => 2
  | "long" => 3
  | "int" => 4
  | "short" => 5
  | "char" => 6
  | "byte" => 7
  | "boolean" => noMatch
  | _ => 8

namespace AliasRegistry

open Inquiry

/-- The kind of an argument type as the caller wrote it. -/
def classify (registry : AliasRegistry) (actual : String) : Inquiry ArgumentKind :=
  if undefinedNames.contains actual then return .undefined
  else
    let name := registry.normalize actual
    if name = "boolean" || name = PlatformName.boolean then return .boolean
    else if name = PlatformName.string then return .textual
    else if name = "char" then return .object
    else if isPrimitiveName name then return .numeric
    else if isArrayName name then return .array
    else do
      let isNumber ← assignable name PlatformName.number
      return if isNumber then .numeric else .object

/-- The score that the kind of an argument gives, for platform spellings of both types;
none leaves the decision to assignability. -/
def kindScore (source target : String) : ArgumentKind → Inquiry (Option Nat)
  | .undefined =>
    return if target = PlatformName.string || target = PlatformName.object then some 1 else none
  | .boolean =>
    return if target = "boolean" then some 1
      else if target = PlatformName.boolean then some 2
      else if target = PlatformName.object then some 3
      else if target = PlatformName.string then some 4
      else none
  | .numeric =>
    if target = "double" then return some 1
    else if target = "boolean" then return none
    else if isPrimitiveName target then return some (1 + sizeRank target)
    else if target = PlatformName.string then return some 9
    else if target = PlatformName.object then return some 10
    else do
      let isNumber ← assignable target PlatformName.number
      return if isNumber then some 2 else none
  | .textual =>
    return if target = PlatformName.string then some 1
      else if target = "char" then some 3
      else if target = "boolean" then none
      else if isPrimitiveName target then some 4
      else none
  | .array =>
    return if isArrayName target then some 1
      else if target = PlatformName.string then some 2
      else if target = "boolean" then none
      else if isPrimitiveName target then some (2 + sizeRank target)
      else none
  | .object => do
    let isBelow ←
      if target = PlatformName.object then pure false else assignable source target
    return if isBelow then some 1
      else if isArrayName target then (if isArrayName source then some 1 else none)
      else if target = PlatformName.object then some 2
      else if target = PlatformName.string then some 3
      else if target = PlatformName.date then (if source = PlatformName.date then some 1 else none)
      else if target = "boolean" then none
      else if isPrimitiveName target then some (3 + sizeRank target)
      else none

/-- The score of passing an argument of type `actual` to a parameter of type `formal`. -/
def parameterScore (registry : AliasRegistry) (actual formal : String) : Inquiry Nat :=
  if actual = formal then return 0
  else do
    let kind ← registry.classify actual
    let source := registry.normalize actual
    let target := registry.normalize formal
    if kind ≠ .undefined ∧ source = target then return 0
    else
      match ← kindScore source target kind with
      | some score => return score
      | none =>
        let isBelow ← assignable source target
        return if isBelow then 3
          else if target = PlatformName.object then 4
          else noMatch

end AliasRegistry

end ClassAtlas
