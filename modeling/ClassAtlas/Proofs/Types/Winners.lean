import ClassAtlas.Proofs.Types.Scores
import Mathlib.Data.List.Forall2

/-!
# Which candidate wins a call

Of the candidates with the lowest score, the first one wins. The lowest score of all
is zero, for candidates that take the arguments as they are: each argument type is
the parameter type, or becomes the same name when aliases are replaced. So the first
candidate that takes the arguments as they are wins, if there is one.
-/

namespace ClassAtlas.AliasRegistry

open Inquiry

/-! ## Arguments that are taken as they are -/

section Zero

variable {hierarchy : Hierarchy} {registry : AliasRegistry} {actual formal : String}

/-- Whether a parameter takes an argument as it is: the types are equal as written, or the type
of the argument says something and aliases make the same name of both. -/
def TakesAsIs (registry : AliasRegistry) (actual formal : String) : Prop :=
  actual = formal
    ∨ actual ∉ undefinedNames ∧ registry.normalize actual = registry.normalize formal

/-- A conversion scores zero exactly if the parameter takes the argument as it is. -/
theorem conversionScore_eq_zero_iff :
    registry.conversionScore hierarchy actual formal = 0 ↔ registry.TakesAsIs actual formal := by
  rw [conversionScore_eq, TakesAsIs]
  split
  case isTrue htakes => exact iff_of_true rfl htakes
  case isFalse hother =>
    refine iff_of_false (fun hzero => ?_) hother
    cases hscore : registry.scoreByKind hierarchy actual formal with
    | some score =>
      rw [hscore, Option.getD_some] at hzero
      exact Nat.lt_irrefl 0 (hzero ▸ (kindScore_bounds hscore).1)
    | none =>
      rw [hscore, Option.getD_none, scoreByAssignment, noMatch] at hzero
      grind

end Zero

/-! ## The first of the lowest scores -/

/-- Whether an item is the first one with the lowest score. -/
def LowestFirst {γ : Type} (score : γ → Nat) (items : List γ) (winner : γ) : Prop :=
  ∃ earlier later, items = earlier ++ winner :: later
    ∧ (∀ item ∈ earlier, score winner < score item) ∧ ∀ item ∈ later, score winner ≤ score item

/-- The first item wins if none behind it is lower, and else what wins among the others, if it is
lower than the first. -/
theorem lowestFirst_cons_iff {γ : Type} {score : γ → Nat} {item winner : γ} {rest : List γ} :
    LowestFirst score (item :: rest) winner
      ↔ (winner = item ∧ ∀ other ∈ rest, score item ≤ score other)
        ∨ (score winner < score item ∧ LowestFirst score rest winner) := by
  constructor
  · rintro ⟨earlier, later, hitems, hearlier, hlater⟩
    cases earlier with
    | nil =>
      obtain ⟨rfl, rfl⟩ := List.cons.inj hitems
      exact .inl ⟨rfl, hlater⟩
    | cons first earlier =>
      obtain ⟨rfl, rfl⟩ := List.cons.inj hitems
      obtain ⟨hfirst, hrest⟩ := List.forall_mem_cons.1 hearlier
      exact .inr ⟨hfirst, earlier, later, rfl, hrest, hlater⟩
  · rintro (⟨rfl, hlater⟩ | ⟨hfirst, earlier, later, rfl, hearlier, hlater⟩)
    · exact ⟨[], rest, rfl, by simp, hlater⟩
    · exact ⟨item :: earlier, later, rfl, List.forall_mem_cons.2 ⟨hfirst, hearlier⟩, hlater⟩

/-- Where zero is scored at all, the first item that does so is the first one with the lowest
score. -/
theorem exists_lowestFirst_of_zero {γ : Type} {score : γ → Nat} {items : List γ}
    (h : ∃ item ∈ items, score item = 0) :
    ∃ winner earlier later, items = earlier ++ winner :: later ∧ score winner = 0
      ∧ (∀ item ∈ earlier, score item ≠ 0) ∧ LowestFirst score items winner := by
  have hsome : (items.find? (score · = 0)).isSome = true := by
    rw [List.find?_isSome]
    simpa using h
  obtain ⟨winner, hwinner⟩ := Option.isSome_iff_exists.1 hsome
  obtain ⟨htest, earlier, later, hitems, htests⟩ := List.find?_eq_some_iff_append.1 hwinner
  have hzero : score winner = 0 := of_decide_eq_true htest
  have hearlier : ∀ item ∈ earlier, score item ≠ 0 := by
    simpa using htests
  refine ⟨winner, earlier, later, hitems, hzero, hearlier, earlier, later, hitems, ?_, ?_⟩
  · intro item hitem
    have hpositive := hearlier item hitem
    omega
  · intro item _
    omega

section Best

variable {hierarchy : Hierarchy} {registry : AliasRegistry} {γ : Type} {view : γ → Candidate}
  {name : String} {arguments : List String}

/-- The score of an item for a call. -/
def itemScore (hierarchy : Hierarchy) (registry : AliasRegistry) (view : γ → Candidate)
    (name : String) (arguments : List String) (item : γ) : Nat :=
  (registry.score (view item) name arguments).result hierarchy

/-- The score that has to be undercut: that of the best item so far. -/
def heldScore : Option (γ × Nat) → Nat
  | some held => held.2
  | none => noMatch

/-- An item takes the place of the best one so far exactly if it undercuts its score. -/
theorem result_bestBehind_cons (best : Option (γ × Nat)) (item : γ) (rest : List γ) :
    (registry.bestBehind view name arguments best (item :: rest)).result hierarchy
      = if registry.itemScore hierarchy view name arguments item < heldScore best
        then (registry.bestBehind view name arguments
          (some (item, registry.itemScore hierarchy view name arguments item)) rest).result
            hierarchy
        else (registry.bestBehind view name arguments best rest).result hierarchy := by
  cases best with
  | none =>
    simp only [bestBehind, result_bind, itemScore, heldScore]
    exact apply_ite _ _ _ _
  | some held =>
    simp only [bestBehind, result_bind, itemScore, heldScore]
    exact apply_ite _ _ _ _

/-- The search comes back with the first of the lowest scores if it undercuts what the search
starts with, and else with that. The induction is on the further candidates. -/
theorem result_bestBehind_eq_some_iff (best : Option (γ × Nat)) (rest : List γ) {winner : γ}
    {score : Nat} :
    (registry.bestBehind view name arguments best rest).result hierarchy = some (winner, score)
      ↔ (registry.itemScore hierarchy view name arguments winner = score
          ∧ score < heldScore best
          ∧ LowestFirst (registry.itemScore hierarchy view name arguments) rest winner)
        ∨ (best = some (winner, score)
          ∧ ∀ item ∈ rest, score ≤ registry.itemScore hierarchy view name arguments item) := by
  induction rest generalizing best with
  | nil =>
    have hnone : ¬ LowestFirst (registry.itemScore hierarchy view name arguments) [] winner := by
      simp [LowestFirst]
    simp [bestBehind, hnone]
  | cons item rest ih =>
    rw [result_bestBehind_cons, lowestFirst_cons_iff, List.forall_mem_cons]
    -- a tie does not undercut, so the earlier item keeps its place
    have hheld : best = some (winner, score) → heldScore best = score := by
      rintro rfl
      rfl
    split
    case isTrue hbelow =>
      rw [ih, heldScore, Option.some.injEq, Prod.mk.injEq]
      grind
    case isFalse hrefused =>
      rw [ih]
      grind

/-- A call resolves to the first of the lowest scores, if that is below `noMatch`. -/
theorem result_best_eq_some_iff (candidates : List γ) {winner : γ} {score : Nat} :
    (registry.best view candidates name arguments).result hierarchy = some (winner, score)
      ↔ registry.itemScore hierarchy view name arguments winner = score ∧ score < noMatch
        ∧ LowestFirst (registry.itemScore hierarchy view name arguments) candidates winner := by
  rw [best, result_bestBehind_eq_some_iff, heldScore]
  simp

end Best

/-! ## Candidates that take all arguments as they are -/

section Exact

variable {hierarchy : Hierarchy} {registry : AliasRegistry} {γ : Type} {view : γ → Candidate}
  {name : String} {arguments : List String}

/-- Whether a candidate has the name of a call and takes its arguments as they are. -/
def TakesCall (registry : AliasRegistry) (name : String) (arguments : List String)
    (candidate : Candidate) : Prop :=
  candidate.name = name ∧ List.Forall₂ registry.TakesAsIs arguments candidate.parameterTypes

/-- A candidate takes a call with its own parameter types. -/
theorem takesCall_self (registry : AliasRegistry) (candidate : Candidate) :
    registry.TakesCall candidate.name candidate.parameterTypes candidate :=
  ⟨rfl, List.forall₂_same.2 fun _ _ => .inl rfl⟩

/-- Scores sum up to zero exactly if all arguments are taken as they are. -/
theorem result_sumScores_eq_zero_iff (pairs : List (String × String)) :
    (registry.sumScores 0 pairs).result hierarchy = 0
      ↔ ∀ pair ∈ pairs, registry.TakesAsIs pair.1 pair.2 := by
  have htotal : registry.totalScore hierarchy pairs = 0
      ↔ ∀ pair ∈ pairs, registry.TakesAsIs pair.1 pair.2 := by
    rw [totalScore, List.sum_eq_zero_iff, List.forall_mem_map]
    simp only [conversionScore_eq_zero_iff]
  rw [result_sumScores]
  split
  case isTrue => rw [Nat.zero_add, htotal]
  case isFalse hrefused =>
    refine iff_of_false (by decide) fun htakes => hrefused fun pair hpair => ?_
    rw [conversionScore_eq_zero_iff.2 (htakes pair hpair)]
    decide

/-- A candidate scores zero exactly if it takes the call as it is. -/
theorem result_score_eq_zero_iff (candidate : Candidate) :
    (registry.score candidate name arguments).result hierarchy = 0
      ↔ registry.TakesCall name arguments candidate := by
  unfold score TakesCall
  rw [List.forall₂_iff_zip]
  split
  case isTrue hother =>
    rw [result_pure]
    refine iff_of_false (by decide) fun htakes => ?_
    rcases hother with hname | hlength
    · exact hname htakes.1
    · exact hlength htakes.2.1.symm
  case isFalse hsame =>
    obtain ⟨hname, hlength⟩ := not_or.1 hsame
    rw [result_sumScores_eq_zero_iff, Prod.forall, and_iff_right (not_not.1 hname),
      and_iff_right (not_not.1 hlength).symm]

/-- If some candidate takes a call as it is, the call resolves to the first one that does, with
a score of zero. -/
theorem exists_result_best_eq {candidates : List γ}
    (h : ∃ item ∈ candidates, registry.TakesCall name arguments (view item)) :
    ∃ winner earlier later, candidates = earlier ++ winner :: later
      ∧ registry.TakesCall name arguments (view winner)
      ∧ (∀ item ∈ earlier, ¬ registry.TakesCall name arguments (view item))
      ∧ (registry.best view candidates name arguments).result hierarchy = some (winner, 0) := by
  have hzero : ∀ item, registry.itemScore hierarchy view name arguments item = 0
      ↔ registry.TakesCall name arguments (view item) :=
    fun item => result_score_eq_zero_iff (view item)
  simp only [← hzero] at h ⊢
  obtain ⟨winner, earlier, later, hcandidates, hwinner, hearlier, hlowest⟩ :=
    exists_lowestFirst_of_zero h
  refine ⟨winner, earlier, later, hcandidates, hwinner, hearlier, ?_⟩
  rw [result_best_eq_some_iff]
  exact ⟨hwinner, by decide, hlowest⟩

end Exact

end ClassAtlas.AliasRegistry
