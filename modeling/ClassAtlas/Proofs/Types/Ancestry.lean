import ClassAtlas.Proofs.FirstWays
import ClassAtlas.Proofs.Types.Scores

/-!
# What is above a class

The search for a supertype visits everything above a name, on any hierarchy, so it
finds exactly what parents lead to. The search is for classes: a name that is
primitive or ends like an array is judged by rules that ask for no supertypes. What
can be assigned without conversion can be converted, however it is scored.
-/

namespace ClassAtlas

theorem isArrayName_eq_isSome (name : String) : isArrayName name = (elementName? name).isSome := by
  unfold isArrayName Text.hasEnding elementName? Text.dropEnding?
  split
  · next hending => exact hending
  · next hother => exact Bool.eq_false_iff.2 hother

/-- Primitive names do not end like arrays. -/
theorem isPrimitiveName_of_isArrayName {name : String} (h : isArrayName name = true) :
    isPrimitiveName name = false := by
  refine Bool.eq_false_iff.2 fun hprimitive => ?_
  obtain ⟨kind, _, hname⟩ := List.any_eq_true.1 hprimitive
  have hspelled : kind.name = name := of_decide_eq_true hname
  subst hspelled
  revert h
  cases kind <;> decide

/-- Whether a name is read as the name of a class: it is not primitive, and no array name. -/
def isClassName (name : String) : Bool :=
  !isPrimitiveName name && !isArrayName name

/-- A class is neither a primitive type nor an array. -/
theorem isClassName_iff {name : String} :
    isClassName name = true ↔ isPrimitiveName name = false ∧ elementName? name = none := by
  simp [isClassName, isArrayName_eq_isSome]

/-- Whether the rules for primitive types and arrays let supertypes count between two names:
the names are equal, both are those of classes, or one is that of an array and the other is a
type that every array belongs to. -/
def SupertypesCount (source target : String) : Prop :=
  source = target ∨ isClassName source = true ∧ isClassName target = true
    ∨ isArrayName source = true ∧ target ∈ arraySupertypes

namespace Hierarchy

variable {hierarchy : Hierarchy} {name source target : String}

/-- Whether a name has another as a parent. -/
def IsBelow (hierarchy : Hierarchy) (lower upper : String) : Prop :=
  upper ∈ hierarchy.parents lower

/-- Supertypes that a hierarchy knows are parents. -/
theorem isBelow_of_mem_supertypes (h : target ∈ hierarchy.supertypes source) :
    hierarchy.IsBelow source target := by
  unfold IsBelow parents
  cases hknown : hierarchy.supertypes source with
  | nil =>
    rw [hknown] at h
    cases h
  | cons first others =>
    rw [hknown] at h
    exact h

theorem mem_parentNames (h : hierarchy.parents name ≠ []) : name ∈ hierarchy.parentNames := by
  unfold parents at h
  unfold parentNames
  cases hknown : hierarchy.supertypes name with
  | nil =>
    rw [hknown] at h
    exact List.mem_append_right _ (mem_of_listedSupertypes_ne_nil h)
  | cons first others =>
    refine List.mem_append_left _ (hierarchy.complete name ?_)
    rw [hknown]
    exact List.cons_ne_nil first others

/-- The walk through what is above a name comes to an end of its own. -/
theorem completes_ancestry (hierarchy : Hierarchy) (source : String) :
    Walk.Completes id (fun name => (hierarchy.parents name).reverse) [source] []
      (hierarchy.ancestry source) := by
  have hkeys : ∀ name, True → (hierarchy.parents name).reverse ≠ [] →
      id name ∈ hierarchy.parentNames :=
    fun _ _ hparents => mem_parentNames fun hnil => hparents (List.reverse_eq_nil_iff.2 hnil)
  exact Walk.completes_visits (fun _ _ _ _ => trivial) hkeys (Nat.le_refl _) fun _ _ => trivial

/-- The search visits what parents lead to. -/
theorem mem_ancestry_iff :
    target ∈ hierarchy.ancestry source
      ↔ Relation.ReflTransGen hierarchy.IsBelow source target := by
  have hmem := (hierarchy.completes_ancestry source).mem_keys_iff (fun _ => List.map_id _) target
  simp only [List.map_id, id_eq, List.mem_reverse] at hmem
  exact hmem

/-- A target is found exactly if parents lead to it, in one step at least. -/
theorem reaches_iff :
    hierarchy.reaches source target = true
      ↔ Relation.TransGen hierarchy.IsBelow source target := by
  unfold reaches
  rw [List.any_eq_true, Relation.TransGen.tail'_iff]
  simp only [mem_ancestry_iff, List.contains_eq_mem, decide_eq_true_eq]
  rfl

/-- Between classes, what parents lead to can be assigned to. -/
theorem isAssignable_of_reaches (hsource : isClassName source = true)
    (htarget : isClassName target = true) (h : hierarchy.reaches source target = true) :
    hierarchy.isAssignable source target = true := by
  obtain ⟨hsourcePlain, hsourceElement⟩ := isClassName_iff.1 hsource
  obtain ⟨htargetPlain, htargetElement⟩ := isClassName_iff.1 htarget
  have hcase : assignmentCase source.length source target = .settled true
      ∨ assignmentCase source.length source target = .search source target := by
    unfold assignmentCase
    simp only [hsourcePlain, htargetPlain, hsourceElement, htargetElement]
    grind
  unfold isAssignable
  rcases hcase with hsettled | hsearch
  · rw [hsettled]
  · rw [hsearch]
    exact h

/-- Every type is assignable to itself. -/
theorem isAssignable_refl (hierarchy : Hierarchy) (name : String) :
    hierarchy.isAssignable name name = true := by
  have hcase : assignmentCase name.length name name = .settled true := by
    unfold assignmentCase
    rw [if_pos rfl]
  rw [isAssignable, hcase]

/-- An array can be assigned to the types that every array belongs to. -/
theorem isAssignable_of_mem_arraySupertypes (harray : isArrayName source = true)
    (htarget : target ∈ arraySupertypes) : hierarchy.isAssignable source target = true := by
  have hclasses : ∀ name ∈ arraySupertypes, isClassName name = true := by
    decide
  obtain ⟨htargetPlain, htargetElement⟩ := isClassName_iff.1 (hclasses target htarget)
  have hsourcePlain := isPrimitiveName_of_isArrayName harray
  rw [isArrayName_eq_isSome] at harray
  obtain ⟨element, helement⟩ := Option.isSome_iff_exists.1 harray
  have hcase : assignmentCase source.length source target = .settled true := by
    unfold assignmentCase
    simp [hsourcePlain, htargetPlain, helement, htargetElement, htarget]
  rw [isAssignable, hcase]

/-- Where supertypes count, whatever parents lead to can be assigned to. -/
theorem isAssignable_of_supertypesCount (hcount : SupertypesCount source target)
    (h : Relation.ReflTransGen hierarchy.IsBelow source target) :
    hierarchy.isAssignable source target = true := by
  rcases hcount with rfl | ⟨hsource, htarget⟩ | ⟨harray, htarget⟩
  · exact isAssignable_refl hierarchy source
  · rcases Relation.reflTransGen_iff_eq_or_transGen.1 h with rfl | habove
    · exact isAssignable_refl hierarchy _
    · exact isAssignable_of_reaches hsource htarget (reaches_iff.2 habove)
  · exact isAssignable_of_mem_arraySupertypes harray htarget

end Hierarchy

namespace AliasRegistry

open Inquiry

variable {hierarchy : Hierarchy} {registry : AliasRegistry} {actual formal : String}

/-- What can be assigned without conversion can be converted. -/
theorem conversionScore_lt_of_isAssignable
    (h : hierarchy.isAssignable (registry.normalize actual) (registry.normalize formal) = true) :
    registry.conversionScore hierarchy actual formal < noMatch := by
  rw [conversionScore_eq]
  split
  case isTrue => exact Nat.zero_lt_succ _
  case isFalse =>
    cases hscore : registry.scoreByKind hierarchy actual formal with
    | some score => exact Nat.lt_of_le_of_lt (kindScore_bounds hscore).2 (by decide)
    | none =>
      rw [Option.getD_none, scoreByAssignment, if_pos h]
      decide

end AliasRegistry

end ClassAtlas
