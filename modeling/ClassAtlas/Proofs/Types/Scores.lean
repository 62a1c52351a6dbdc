import ClassAtlas.Types.Overload
import Mathlib.Algebra.Group.Action.Defs
import Mathlib.Algebra.Order.BigOperators.Group.List
import Mathlib.Algebra.Order.Ring.Nat

/-!
# When a call finds no match

The score of a candidate is the sum of the scores of its arguments, and a sum from
`noMatch` on is taken for no conversion at all. A single conversion scores ten at
most, so that calls with fewer than a hundred arguments never come near: they find
no match exactly when no candidate can be converted to. From a hundred arguments
on, a candidate may be passed over although every argument can be converted. Sums
fit into words of 32 bits for all calls with fewer than 429496730 arguments.
-/

namespace ClassAtlas.AliasRegistry

open Inquiry

variable (hierarchy : Hierarchy) (registry : AliasRegistry)

/-! ## What is compared -/

/-- The score of passing an argument of type `actual` to a parameter of type `formal`. -/
def conversionScore (actual formal : String) : Nat :=
  (registry.parameterScore actual formal).result hierarchy

/-- The sum of the scores of arguments with their parameters. -/
def totalScore (pairs : List (String × String)) : Nat :=
  (pairs.map fun pair => registry.conversionScore hierarchy pair.1 pair.2).sum

/-- The same sum in words of 32 bits, which wrap around. -/
def wordScore (pairs : List (String × String)) : UInt32 :=
  (pairs.map fun pair => registry.conversionScore hierarchy pair.1 pair.2).foldl
    (fun sofar score => sofar + UInt32.ofNat score) 0

/-- Whether a candidate has the name and the number of parameters of a call, and every
argument can be converted to its parameter. -/
def Converts (candidate : Candidate) (name : String) (arguments : List String) : Prop :=
  candidate.name = name ∧ candidate.parameterTypes.length = arguments.length
    ∧ ∀ pair ∈ arguments.zip candidate.parameterTypes,
      registry.conversionScore hierarchy pair.1 pair.2 < noMatch

/-- Whether a call finds no match exactly if no candidate can be converted to. -/
def NoMatchMeansNoConversion {γ : Type} (view : γ → Candidate) (candidates : List γ)
    (name : String) (arguments : List String) : Prop :=
  (registry.best view candidates name arguments).result hierarchy = none
    ↔ ∀ item ∈ candidates, ¬ registry.Converts hierarchy (view item) name arguments

variable {hierarchy registry}

/-! ## Single conversions -/

/-- Among the primitive types, all but one have a rank of seven at most. -/
theorem sizeRank_le {name : String} (hprimitive : isPrimitiveName name = true)
    (hboolean : name ≠ "boolean") : sizeRank name ≤ 7 := by
  obtain ⟨kind, _, hname⟩ := List.any_eq_true.1 hprimitive
  have hspelled : kind.name = name := of_decide_eq_true hname
  subst hspelled
  cases kind with
  | boolean => exact absurd rfl hboolean
  | _ => decide

/-- The kind of an argument gives scores from one to ten. -/
theorem kindScore_bounds {source target : String} {kind : ArgumentKind} {score : Nat}
    (h : (kindScore source target kind).result hierarchy = some score) :
    0 < score ∧ score ≤ 10 := by
  have hrank : target ≠ "boolean" → isPrimitiveName target = true → sizeRank target ≤ 7 :=
    fun hboolean hprimitive => sizeRank_le hprimitive hboolean
  cases kind with
  | undefined =>
    simp only [kindScore, result_pure] at h
    split at h <;> grind
  | boolean =>
    simp only [kindScore, result_pure] at h
    grind
  | numeric =>
    simp only [kindScore] at h
    grind [result_pure, result_bind]
  | textual =>
    simp only [kindScore, result_pure] at h
    grind
  | array =>
    simp only [kindScore, result_pure] at h
    grind
  | object =>
    simp only [kindScore] at h
    split at h <;> simp only [result_bind, result_pure] at h <;> grind

/-- An argument has no kind exactly if its type says nothing. -/
theorem classify_eq_undefined_iff {actual : String} :
    (registry.classify actual).result hierarchy = .undefined ↔ actual ∈ undefinedNames := by
  unfold classify
  split
  · next hundefined => simpa using hundefined
  · next hdefined =>
    have hnot : actual ∉ undefinedNames := by simpa using hdefined
    refine iff_of_false (fun hkind => ?_) hnot
    simp only at hkind
    grind [result_pure, result_bind]

/-- The score that the kind of an argument gives with a parameter, if it gives one. -/
def scoreByKind (hierarchy : Hierarchy) (registry : AliasRegistry) (actual formal : String) :
    Option Nat :=
  (kindScore (registry.normalize actual) (registry.normalize formal)
    ((registry.classify actual).result hierarchy)).result hierarchy

/-- The score of an argument whose kind gives none: by assignability, or as an object. -/
def scoreByAssignment (hierarchy : Hierarchy) (registry : AliasRegistry)
    (actual formal : String) : Nat :=
  if hierarchy.isAssignable (registry.normalize actual) (registry.normalize formal) then 3
  else if registry.normalize formal = PlatformName.object then 4
  else noMatch

/-- What a parameter takes as it is scores zero: the types are equal as written, or the type of the
argument says something and aliases make the same name of both. Anything else scores by the kind
of the argument, and behind it by assignability. -/
theorem conversionScore_eq (hierarchy : Hierarchy) (registry : AliasRegistry)
    (actual formal : String) :
    registry.conversionScore hierarchy actual formal
      = if actual = formal ∨ actual ∉ undefinedNames
            ∧ registry.normalize actual = registry.normalize formal then 0
        else (registry.scoreByKind hierarchy actual formal).getD
          (registry.scoreByAssignment hierarchy actual formal) := by
  have hkind : (registry.classify actual).result hierarchy = .undefined
      ↔ actual ∈ undefinedNames := classify_eq_undefined_iff
  simp only [conversionScore, parameterScore]
  by_cases hsame : actual = formal
  · rw [if_pos hsame, if_pos (.inl hsame), result_pure]
  · rw [if_neg hsame, result_bind]
    by_cases hspelled : actual ∉ undefinedNames
      ∧ registry.normalize actual = registry.normalize formal
    · rw [if_pos ⟨mt hkind.1 hspelled.1, hspelled.2⟩, if_pos (.inr hspelled), result_pure]
    · rw [if_neg fun h => hspelled ⟨mt hkind.2 h.1, h.2⟩, if_neg (not_or.2 ⟨hsame, hspelled⟩),
        result_bind, scoreByKind]
      split
      case h_1 score hscore => rw [hscore, result_pure, Option.getD_some]
      case h_2 hnone =>
        rw [hnone, Option.getD_none, result_bind, result_assignable, result_pure,
          scoreByAssignment]

/-- What can be converted scores ten at most. -/
theorem conversionScore_le {actual formal : String}
    (h : registry.conversionScore hierarchy actual formal < noMatch) :
    registry.conversionScore hierarchy actual formal ≤ 10 := by
  rw [conversionScore_eq] at h ⊢
  split
  case isTrue => exact Nat.zero_le _
  case isFalse hother =>
    rw [if_neg hother] at h
    cases hscore : registry.scoreByKind hierarchy actual formal with
    | some score => exact (kindScore_bounds hscore).2
    | none =>
      rw [hscore, Option.getD_none, scoreByAssignment] at h
      rw [Option.getD_none, scoreByAssignment]
      grind

/-! ## Candidates -/

/-- The sum goes on exactly while the arguments can be converted. -/
theorem result_sumScores (sofar : Nat) (pairs : List (String × String)) :
    (registry.sumScores sofar pairs).result hierarchy
      = if ∀ pair ∈ pairs, registry.conversionScore hierarchy pair.1 pair.2 < noMatch
        then sofar + registry.totalScore hierarchy pairs else noMatch := by
  induction pairs generalizing sofar with
  | nil => simp [sumScores, totalScore]
  | cons pair rest ih =>
    obtain ⟨actual, formal⟩ := pair
    have hsum : registry.totalScore hierarchy ((actual, formal) :: rest)
        = registry.conversionScore hierarchy actual formal
          + registry.totalScore hierarchy rest := rfl
    have hhead : (registry.parameterScore actual formal).result hierarchy
        = registry.conversionScore hierarchy actual formal := rfl
    simp only [sumScores, result_bind, hhead]
    split
    case isTrue hrefused => simp [Nat.not_lt.2 hrefused]
    case isFalse hconverts =>
      rw [ih, hsum]
      simp only [List.forall_mem_cons, Nat.lt_of_not_le hconverts, true_and, Nat.add_assoc]

/-- A candidate has a score below `noMatch` exactly if it can be converted to and the
scores of its arguments sum up to less. -/
theorem result_score_lt_iff (candidate : Candidate) (name : String) (arguments : List String) :
    (registry.score candidate name arguments).result hierarchy < noMatch
      ↔ registry.Converts hierarchy candidate name arguments
        ∧ registry.totalScore hierarchy (arguments.zip candidate.parameterTypes) < noMatch := by
  unfold score Converts
  split
  case isTrue hother =>
    simp only [result_pure, Nat.lt_irrefl, false_iff]
    grind
  case isFalse hsame =>
    rw [result_sumScores]
    grind

/-- What can be converted to scores ten for each argument at most. -/
theorem Converts.totalScore_le {candidate : Candidate} {name : String} {arguments : List String}
    (h : registry.Converts hierarchy candidate name arguments) :
    registry.totalScore hierarchy (arguments.zip candidate.parameterTypes)
      ≤ 10 * arguments.length := by
  obtain ⟨-, -, hpairs⟩ := h
  have hten : ∀ score ∈ (arguments.zip candidate.parameterTypes).map
      (fun pair => registry.conversionScore hierarchy pair.1 pair.2), score ≤ 10 := by
    intro score hmem
    obtain ⟨pair, hpair, rfl⟩ := List.mem_map.1 hmem
    exact conversionScore_le (hpairs pair hpair)
  have hsum := List.sum_le_card_nsmul _ 10 hten
  simp only [List.length_map, List.length_zip, smul_eq_mul] at hsum
  simp only [totalScore]
  omega

/-- With fewer than a hundred arguments, what can be converted to scores below `noMatch`. -/
theorem Converts.totalScore_lt {candidate : Candidate} {name : String} {arguments : List String}
    (h : registry.Converts hierarchy candidate name arguments) (hfew : arguments.length < 100) :
    registry.totalScore hierarchy (arguments.zip candidate.parameterTypes) < noMatch := by
  have hle := h.totalScore_le
  simp only [noMatch]
  omega

/-! ## Words of 32 bits -/

/-- A sum of words, on top of a sum so far, is the sum of their values modulo the size of
words. -/
theorem toNat_foldl_words (values : List Nat) (sofar : UInt32) :
    (values.foldl (fun sofar value => sofar + UInt32.ofNat value) sofar).toNat
      = (sofar.toNat + values.sum) % 2 ^ 32 := by
  induction values generalizing sofar with
  | nil => simp [Nat.mod_eq_of_lt sofar.toNat_lt]
  | cons value values ih =>
    rw [List.foldl_cons, ih, List.sum_cons, UInt32.toNat_add, UInt32.toNat_ofNat', ← Nat.add_assoc]
    omega

/-- Words are summed up without a carry while there are fewer than 429496730 arguments. -/
theorem Converts.toNat_wordScore {candidate : Candidate} {name : String} {arguments : List String}
    (h : registry.Converts hierarchy candidate name arguments)
    (hfew : arguments.length < 429496730) :
    (registry.wordScore hierarchy (arguments.zip candidate.parameterTypes)).toNat
      = registry.totalScore hierarchy (arguments.zip candidate.parameterTypes) := by
  have hle := h.totalScore_le
  rw [wordScore, toNat_foldl_words, UInt32.toNat_zero, Nat.zero_add]
  rw [totalScore] at hle ⊢
  exact Nat.mod_eq_of_lt (by omega)

/-! ## Calls -/

section Calls

variable {γ : Type} (view : γ → Candidate) (name : String) (arguments : List String)

/-- The search comes back without a match exactly if it starts without one and no score
is below `noMatch`. -/
theorem result_bestBehind_eq_none_iff (best : Option (γ × Nat)) (rest : List γ) :
    (registry.bestBehind view name arguments best rest).result hierarchy = none
      ↔ best = none ∧ ∀ item ∈ rest,
        ¬ (registry.score (view item) name arguments).result hierarchy < noMatch := by
  induction rest generalizing best with
  | nil => simp [bestBehind]
  | cons item rest ih =>
    cases best with
    | none =>
      simp only [bestBehind, result_bind, List.forall_mem_cons]
      split
      case isTrue hbelow => simp [ih, hbelow]
      case isFalse hrefused => simp [ih, hrefused]
    | some held =>
      -- A match is only ever exchanged for another one.
      simp only [bestBehind, result_bind]
      split <;> simp [ih]

/-- A call finds no match exactly if every candidate that can be converted to has a sum of
`noMatch` or more. -/
theorem result_best_eq_none_iff (candidates : List γ) :
    (registry.best view candidates name arguments).result hierarchy = none
      ↔ ∀ item ∈ candidates, registry.Converts hierarchy (view item) name arguments →
        noMatch ≤ registry.totalScore hierarchy (arguments.zip (view item).parameterTypes) := by
  simp only [best, result_bestBehind_eq_none_iff, true_and, result_score_lt_iff, not_and,
    Nat.not_lt]

variable {view name arguments}

/-- One candidate with a sum below `noMatch` is enough. -/
theorem noMatchMeansNoConversion_of_exists {candidates : List γ}
    (h : (∃ item ∈ candidates, registry.Converts hierarchy (view item) name arguments) →
      ∃ item ∈ candidates, registry.Converts hierarchy (view item) name arguments
        ∧ registry.totalScore hierarchy (arguments.zip (view item).parameterTypes) < noMatch) :
    registry.NoMatchMeansNoConversion hierarchy view candidates name arguments := by
  rw [NoMatchMeansNoConversion, result_best_eq_none_iff]
  constructor
  · intro hrefused item hmem hconverts
    obtain ⟨cheap, hcheap, hcheapConverts, hlt⟩ := h ⟨item, hmem, hconverts⟩
    exact Nat.not_lt.2 (hrefused cheap hcheap hcheapConverts) hlt
  · intro hnever item hmem hconverts
    exact absurd hconverts (hnever item hmem)

variable (view name arguments)

/-- No match means no conversion exactly for the calls where, if any candidate can be
converted to, the scores of one of them sum up to less than `noMatch`; in particular for
all calls with fewer than a hundred arguments. For calls with fewer than 429496730 arguments
the sums are those of words of 32 bits. -/
theorem no_match_means_no_conversion_iff (candidates : List γ) :
    (registry.NoMatchMeansNoConversion hierarchy view candidates name arguments
      ↔ ((∃ item ∈ candidates, registry.Converts hierarchy (view item) name arguments) →
          ∃ item ∈ candidates, registry.Converts hierarchy (view item) name arguments
            ∧ registry.totalScore hierarchy (arguments.zip (view item).parameterTypes)
              < noMatch))
    ∧ (arguments.length < 100 →
        registry.NoMatchMeansNoConversion hierarchy view candidates name arguments)
    ∧ (arguments.length < 429496730 →
        ∀ item ∈ candidates, registry.Converts hierarchy (view item) name arguments →
          (registry.wordScore hierarchy (arguments.zip (view item).parameterTypes)).toNat
            = registry.totalScore hierarchy (arguments.zip (view item).parameterTypes)) := by
  refine ⟨⟨?_, noMatchMeansNoConversion_of_exists⟩, fun hfew => ?_,
    fun hfew item _ hconverts => hconverts.toNat_wordScore hfew⟩
  · rintro hmeans ⟨item, hmem, hconverts⟩
    by_contra hnone
    have hrefused : (registry.best view candidates name arguments).result hierarchy = none := by
      rw [result_best_eq_none_iff]
      intro other hother hotherConverts
      exact Nat.not_lt.1 fun hlt => hnone ⟨other, hother, hotherConverts, hlt⟩
    exact hmeans.1 hrefused item hmem hconverts
  · apply noMatchMeansNoConversion_of_exists
    rintro ⟨item, hmem, hconverts⟩
    exact ⟨item, hmem, hconverts, hconverts.totalScore_lt hfew⟩

end Calls

/-- A hundred numbers can be passed as objects one by one, and the call finds no match. -/
theorem hundred_conversions_find_no_match :
    ¬ (ofConfigured []).NoMatchMeansNoConversion Hierarchy.unknown id
      [⟨"f", List.replicate 100 PlatformName.object⟩] "f" (List.replicate 100 "Number") := by
  have hten : (ofConfigured []).conversionScore Hierarchy.unknown "Number" PlatformName.object
      = 10 := by
    decide +kernel
  have hzip : (List.replicate 100 "Number").zip (List.replicate 100 PlatformName.object)
      = List.replicate 100 ("Number", PlatformName.object) := by
    rw [List.zip_replicate']
  have hconverts : (ofConfigured []).Converts Hierarchy.unknown
      ⟨"f", List.replicate 100 PlatformName.object⟩ "f" (List.replicate 100 "Number") := by
    refine ⟨rfl, by simp only [List.length_replicate], ?_⟩
    intro pair hpair
    rw [hzip] at hpair
    rw [List.eq_of_mem_replicate hpair, hten]
    decide
  have htotal : noMatch ≤ (ofConfigured []).totalScore Hierarchy.unknown
      ((List.replicate 100 "Number").zip (List.replicate 100 PlatformName.object)) := by
    rw [hzip, totalScore, List.map_replicate, hten]
    decide
  intro hmeans
  refine hmeans.1 ?_ _ (List.mem_singleton_self _) hconverts
  rw [result_best_eq_none_iff]
  intro item hmem _
  rw [List.mem_singleton.1 hmem]
  exact htotal

end ClassAtlas.AliasRegistry
