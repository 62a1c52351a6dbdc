import ClassAtlas.Proofs.Types.AssignmentRules
import ClassAtlas.Proofs.Types.Winners

/-!
# Which conversions are accepted

A conversion scores from zero to ten, or `noMatch` when it is refused. The kind of
the argument decides first and assignability behind it, so that nothing is refused
that could be assigned, or that is passed as an object. Truth values are the narrow
place: the primitive `boolean` accepts nothing but truth values.
-/

namespace ClassAtlas

/-- To a primitive type nothing can be assigned but the type itself. -/
theorem Hierarchy.isAssignable_iff_eq_of_isPrimitiveName {hierarchy : Hierarchy}
    {source target : String} (h : isPrimitiveName target = true) :
    hierarchy.isAssignable source target = true ↔ source = target := by
  rw [isAssignable_iff_assigns]
  constructor
  · intro hassigns
    by_contra hne
    have hplain := (hassigns.cases_of_ne hne).1
    rw [h, Bool.or_true] at hplain
    exact Bool.noConfusion hplain
  · rintro rfl
    exact .same source

namespace AliasRegistry

open Inquiry

variable {hierarchy : Hierarchy} {registry : AliasRegistry} {actual formal : String}

/-! ## Accepted and refused conversions -/

/-- Whether a parameter accepts an argument: the types are equal as written, the kind of the
argument gives a score, or the argument is assignable to the parameter or passed as an object. -/
def Accepts (hierarchy : Hierarchy) (registry : AliasRegistry) (actual formal : String) : Prop :=
  actual = formal ∨ (registry.scoreByKind hierarchy actual formal).isSome = true
    ∨ hierarchy.isAssignable (registry.normalize actual) (registry.normalize formal) = true
    ∨ registry.normalize formal = PlatformName.object

/-- A parameter accepts what it takes as it is. -/
theorem TakesAsIs.accepts (h : registry.TakesAsIs actual formal) :
    registry.Accepts hierarchy actual formal := by
  rcases h with hsame | ⟨-, hspelled⟩
  · exact .inl hsame
  · have hassignable : hierarchy.isAssignable (registry.normalize actual)
        (registry.normalize formal) = true := by
      rw [hspelled]
      exact Hierarchy.isAssignable_refl hierarchy _
    exact .inr (.inr (.inl hassignable))

/-- An accepted conversion scores ten at most, any other one is refused. -/
theorem conversionScore_cases (hierarchy : Hierarchy) (registry : AliasRegistry)
    (actual formal : String) :
    (registry.Accepts hierarchy actual formal
        ∧ registry.conversionScore hierarchy actual formal ≤ 10)
      ∨ (¬ registry.Accepts hierarchy actual formal
        ∧ registry.conversionScore hierarchy actual formal = noMatch) := by
  by_cases htakes : registry.TakesAsIs actual formal
  · rw [conversionScore_eq_zero_iff.2 htakes]
    exact .inl ⟨htakes.accepts, Nat.zero_le 10⟩
  · have hdiffer : actual ≠ formal := fun hsame => htakes (.inl hsame)
    have hscored : registry.conversionScore hierarchy actual formal
        = (registry.scoreByKind hierarchy actual formal).getD
          (registry.scoreByAssignment hierarchy actual formal) :=
      (conversionScore_eq hierarchy registry actual formal).trans (if_neg htakes)
    rw [hscored]
    cases hscore : registry.scoreByKind hierarchy actual formal with
    | some score =>
      have haccepts : registry.Accepts hierarchy actual formal :=
        .inr (.inl (Option.isSome_iff_exists.2 ⟨score, hscore⟩))
      exact .inl ⟨haccepts, (kindScore_bounds hscore).2⟩
    | none =>
      rw [Option.getD_none, scoreByAssignment]
      split_ifs with hassignable hobject
      · exact .inl ⟨.inr (.inr (.inl hassignable)), by decide⟩
      · exact .inl ⟨.inr (.inr (.inr hobject)), by decide⟩
      · refine .inr ⟨?_, rfl⟩
        simp [Accepts, hdiffer, hscore, hassignable, hobject]

/-- A conversion scores below `noMatch` exactly if it is accepted. -/
theorem conversionScore_lt_iff_accepts :
    registry.conversionScore hierarchy actual formal < noMatch
      ↔ registry.Accepts hierarchy actual formal := by
  rcases conversionScore_cases hierarchy registry actual formal with
    ⟨haccepts, hle⟩ | ⟨hrefuses, heq⟩
  · exact iff_of_true (Nat.lt_of_le_of_lt hle (by decide)) haccepts
  · exact iff_of_false (Nat.not_lt.2 heq.ge) hrefuses

/-! ## Truth values -/

/-- An argument is a truth value exactly if its type says something and is one of the two types
of truth values. -/
theorem classify_eq_boolean_iff :
    (registry.classify actual).result hierarchy = .boolean
      ↔ actual ∉ undefinedNames ∧ (registry.normalize actual = "boolean"
        ∨ registry.normalize actual = PlatformName.boolean) := by
  unfold classify
  grind [result_pure, result_bind]

/-- Truth values alone score with `boolean` by their kind; an object would have to be assignable
to it. -/
theorem isSome_kindScore_boolean_iff {source : String} {kind : ArgumentKind} :
    ((kindScore source "boolean" kind).result hierarchy).isSome = true
      ↔ kind = .boolean ∨ kind = .object ∧ source = "boolean" := by
  have hprimitive : isPrimitiveName "boolean" = true := by decide
  have harray : isArrayName "boolean" = false := by decide
  have hobject : "boolean" ≠ PlatformName.object := by decide
  have hstring : "boolean" ≠ PlatformName.string := by decide
  have hdate : "boolean" ≠ PlatformName.date := by decide
  have hassignable : hierarchy.isAssignable source "boolean" = decide (source = "boolean") := by
    rw [Bool.eq_iff_iff, Hierarchy.isAssignable_iff_eq_of_isPrimitiveName hprimitive,
      decide_eq_true_iff]
  cases kind with
  | undefined => simp [kindScore, hobject, hstring]
  | boolean => simp [kindScore]
  | numeric => simp [kindScore]
  | textual => simp [kindScore, hstring]
  | array => simp [kindScore, harray, hstring]
  | object =>
    rw [kindScore, if_neg hobject, result_bind, result_assignable, hassignable]
    by_cases hsource : source = "boolean"
    · simp [hsource]
    · simp [hsource, harray, hobject, hstring, hdate]

/-- The primitive `boolean` accepts what is written alike and what is a truth value, in which an
argument type that says nothing is one only if it is `boolean` itself. -/
theorem accepts_boolean_iff (h : registry.normalize formal = "boolean") :
    registry.Accepts hierarchy actual formal
      ↔ actual = formal ∨ registry.normalize actual = "boolean"
        ∨ actual ∉ undefinedNames ∧ registry.normalize actual = PlatformName.boolean := by
  have hprimitive : isPrimitiveName "boolean" = true := by decide
  have hobject : "boolean" ≠ PlatformName.object := by decide
  rw [Accepts, scoreByKind, h, isSome_kindScore_boolean_iff,
    Hierarchy.isAssignable_iff_eq_of_isPrimitiveName hprimitive, classify_eq_boolean_iff,
    or_iff_left hobject]
  refine or_congr_right ⟨?_, ?_⟩
  · rintro ((⟨hdefined, hsame | hboxed⟩ | ⟨-, hsame⟩) | hsame)
    · exact .inl hsame
    · exact .inr ⟨hdefined, hboxed⟩
    · exact .inl hsame
    · exact .inl hsame
  · rintro (hsame | ⟨hdefined, hboxed⟩)
    · exact .inr hsame
    · exact .inl (.inl ⟨hdefined, .inr hboxed⟩)

/-! ## Range and acceptance -/

/-- For all aliases, hierarchies and types. A conversion scores from zero to ten or `noMatch`;
it scores zero exactly if the types are equal as written, or the type of the argument says
something and aliases make the same name of both. What is assignable and what is passed as an
object is accepted, and `boolean` accepts truth values only. -/
theorem conversion_score_range_and_acceptance (hierarchy : Hierarchy) (registry : AliasRegistry)
    (actual formal : String) :
    (registry.conversionScore hierarchy actual formal ≤ 10
      ∨ registry.conversionScore hierarchy actual formal = noMatch)
    ∧ (registry.conversionScore hierarchy actual formal = 0
      ↔ actual = formal
        ∨ actual ∉ undefinedNames ∧ registry.normalize actual = registry.normalize formal)
    ∧ (hierarchy.isAssignable (registry.normalize actual) (registry.normalize formal) = true
        ∨ registry.normalize formal = PlatformName.object →
      registry.conversionScore hierarchy actual formal < noMatch)
    ∧ (registry.normalize formal = "boolean" →
      registry.conversionScore hierarchy actual formal < noMatch →
        actual = formal ∨ registry.normalize actual = "boolean"
          ∨ registry.normalize actual = PlatformName.boolean) := by
  refine ⟨?_, conversionScore_eq_zero_iff, fun haccepted => ?_, fun hboolean hscore => ?_⟩
  · exact (conversionScore_cases hierarchy registry actual formal).imp And.right And.right
  · exact conversionScore_lt_iff_accepts.2 (.inr (.inr haccepted))
  · rw [conversionScore_lt_iff_accepts, accepts_boolean_iff hboolean] at hscore
    exact hscore.imp_right (Or.imp_right And.right)

end AliasRegistry

end ClassAtlas
