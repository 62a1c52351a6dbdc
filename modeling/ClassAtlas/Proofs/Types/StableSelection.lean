import ClassAtlas.Proofs.Types.Winners
import Mathlib.Logic.Relation

/-!
# Overload selection is a stable minimum

A candidate scores the sum of its conversions, or `noMatch` when the call does not
fit it. The winner is the first candidate of the lowest score, so that nothing is
changed by the losers: further ones may join, others may leave, and those behind the
winner may stand in any order.
-/

namespace ClassAtlas.AliasRegistry

open Inquiry

/-! ## Losers of a selection -/

section Losers

variable {γ : Type} {score : γ → Nat} {items revised : List γ} {winner : γ}

/-- One change among items that cannot win against an item: a loser joins, in front of the
winner with a greater score or behind it with any that is not lower, or the items behind the
winner take another order. -/
inductive LoserChange (score : γ → Nat) (winner : γ) : (items revised : List γ) → Prop where
  /-- A loser joins in front of the winner. -/
  | ahead {front middle later : List γ} {loser : γ} (h : score winner < score loser) :
      LoserChange score winner (front ++ middle ++ winner :: later)
        (front ++ loser :: middle ++ winner :: later)
  /-- A loser joins behind the winner. -/
  | behind {earlier middle later : List γ} {loser : γ} (h : score winner ≤ score loser) :
      LoserChange score winner (earlier ++ winner :: (middle ++ later))
        (earlier ++ winner :: (middle ++ loser :: later))
  /-- The items behind the winner are put in another order. -/
  | reordered {earlier later others : List γ} (h : later.Perm others) :
      LoserChange score winner (earlier ++ winner :: later) (earlier ++ winner :: others)

/-- Lists of items that come from each other by changes among the losers, where a loser that
joins in one direction leaves in the other. -/
def SameWithoutLosers (score : γ → Nat) (winner : γ) : (items revised : List γ) → Prop :=
  Relation.EqvGen (LoserChange score winner)

/-- The first item with the lowest score is the first one with its score, where none is lower. -/
theorem lowestFirst_iff_find? :
    LowestFirst score items winner
      ↔ (∀ item ∈ items, score winner ≤ score item)
        ∧ items.find? (score · = score winner) = some winner := by
  rw [List.find?_eq_some_iff_append]
  constructor
  · rintro ⟨earlier, later, rfl, hearlier, hlater⟩
    refine ⟨?_, by simp, earlier, later, rfl, ?_⟩
    · rw [List.forall_mem_append, List.forall_mem_cons]
      exact ⟨fun item hitem => (hearlier item hitem).le, Nat.le_refl _, hlater⟩
    · intro item hitem
      have hmore := hearlier item hitem
      simpa using (Nat.ne_of_lt hmore).symm
  · rintro ⟨hlowest, -, earlier, later, rfl, hearlier⟩
    refine ⟨earlier, later, rfl, ?_, ?_⟩
    · intro item hitem
      have hne : score item ≠ score winner := by simpa using hearlier item hitem
      exact Nat.lt_of_le_of_ne (hlowest item (List.mem_append_left _ hitem)) hne.symm
    · intro item hitem
      exact hlowest item (List.mem_append_right _ (List.mem_cons_of_mem _ hitem))

/-- A change among the losers keeps the winner. -/
theorem LoserChange.lowestFirst_iff (h : LoserChange score winner items revised) :
    LowestFirst score items winner ↔ LowestFirst score revised winner := by
  rw [lowestFirst_iff_find?, lowestFirst_iff_find?]
  -- Behind the winner nothing is found any more, and in front of it a loser is passed over.
  cases h with
  | ahead hmore =>
    refine and_congr ?_ (by simp [List.find?_append, Nat.ne_of_gt hmore])
    simp only [List.forall_mem_append, List.forall_mem_cons, hmore.le, true_and]
  | behind hnotLess =>
    refine and_congr ?_ (by simp [List.find?_append])
    simp only [List.forall_mem_append, List.forall_mem_cons, hnotLess, true_and]
  | reordered hperm =>
    refine and_congr ?_ (by simp [List.find?_append])
    simp only [List.forall_mem_append, List.forall_mem_cons, hperm.mem_iff]

/-- Any changes among the losers keep the winner. The induction is on their chain. -/
theorem SameWithoutLosers.lowestFirst_iff (h : SameWithoutLosers score winner items revised) :
    LowestFirst score items winner ↔ LowestFirst score revised winner := by
  induction h with
  | rel items revised hchange => exact hchange.lowestFirst_iff
  | refl items => rfl
  | symm items revised _ ih => exact ih.symm
  | trans items between revised _ _ ihfirst ihsecond => exact ihfirst.trans ihsecond

end Losers

/-! ## Selection -/

section Selection

variable {hierarchy : Hierarchy} {registry : AliasRegistry} {γ : Type} {view : γ → Candidate}
  {name : String} {arguments : List String} {item : γ}

/-- An item to which the arguments can be converted scores the sum of the conversions. -/
theorem itemScore_of_converts (h : registry.Converts hierarchy (view item) name arguments) :
    registry.itemScore hierarchy view name arguments item
      = registry.totalScore hierarchy (arguments.zip (view item).parameterTypes) := by
  obtain ⟨hname, hlength, hpairs⟩ := h
  rw [itemScore, score, if_neg (by simp [hname, hlength]), result_sumScores, if_pos hpairs,
    Nat.zero_add]

/-- Any other item scores `noMatch`. -/
theorem itemScore_of_not_converts (h : ¬ registry.Converts hierarchy (view item) name arguments) :
    registry.itemScore hierarchy view name arguments item = noMatch := by
  rw [itemScore, score]
  split
  case isTrue => rfl
  case isFalse hsame =>
    obtain ⟨hname, hlength⟩ := not_or.1 hsame
    rw [result_sumScores, if_neg]
    exact fun hpairs => h ⟨not_not.1 hname, not_not.1 hlength, hpairs⟩

/-- A call resolves to an item with its score exactly if the score is below `noMatch`, none is
lower, and those of the items in front are greater. -/
theorem result_best_eq_some_iff_exists (candidates : List γ) {winner : γ} {score : Nat} :
    (registry.best view candidates name arguments).result hierarchy = some (winner, score)
      ↔ score < noMatch ∧ registry.itemScore hierarchy view name arguments winner = score
        ∧ (∀ item ∈ candidates, score ≤ registry.itemScore hierarchy view name arguments item)
        ∧ ∃ earlier later, candidates = earlier ++ winner :: later
          ∧ ∀ item ∈ earlier, score < registry.itemScore hierarchy view name arguments item := by
  rw [result_best_eq_some_iff]
  constructor
  · rintro ⟨rfl, hbelow, hfirst⟩
    obtain ⟨hlowest, -⟩ := lowestFirst_iff_find?.1 hfirst
    obtain ⟨earlier, later, hcandidates, hearlier, -⟩ := hfirst
    exact ⟨hbelow, rfl, hlowest, earlier, later, hcandidates, hearlier⟩
  · rintro ⟨hbelow, rfl, hlowest, earlier, later, rfl, hearlier⟩
    refine ⟨rfl, hbelow, earlier, later, rfl, hearlier, fun item hitem => ?_⟩
    exact hlowest item (List.mem_append_right _ (List.mem_cons_of_mem _ hitem))

/-- For all aliases, hierarchies and calls, and for candidates of any type, so that they may be
told apart by their places. The score of a candidate is the sum of its conversions if it has the
name and the number of parameters of the call and every argument can be converted, and else
`noMatch`; summing up words of 32 bits gives the same for fewer than 429496730 arguments. The
winner is the first candidate of the lowest score, if that is below `noMatch`, and it stays the
winner however the losers change. -/
theorem overload_selection_stable (hierarchy : Hierarchy) (registry : AliasRegistry)
    (view : γ → Candidate) (name : String) (arguments : List String) :
    (∀ item,
      (registry.Converts hierarchy (view item) name arguments →
        registry.itemScore hierarchy view name arguments item
          = registry.totalScore hierarchy (arguments.zip (view item).parameterTypes))
      ∧ (¬ registry.Converts hierarchy (view item) name arguments →
        registry.itemScore hierarchy view name arguments item = noMatch)
      ∧ (arguments.length < 429496730 → registry.Converts hierarchy (view item) name arguments →
        (registry.wordScore hierarchy (arguments.zip (view item).parameterTypes)).toNat
          = registry.itemScore hierarchy view name arguments item))
    ∧ (∀ candidates winner score,
      (registry.best view candidates name arguments).result hierarchy = some (winner, score)
        ↔ score < noMatch ∧ registry.itemScore hierarchy view name arguments winner = score
          ∧ (∀ item ∈ candidates, score ≤ registry.itemScore hierarchy view name arguments item)
          ∧ ∃ earlier later, candidates = earlier ++ winner :: later
            ∧ ∀ item ∈ earlier, score < registry.itemScore hierarchy view name arguments item)
    ∧ (∀ candidates revised winner score,
      SameWithoutLosers (registry.itemScore hierarchy view name arguments) winner
          candidates revised →
        ((registry.best view candidates name arguments).result hierarchy = some (winner, score)
          ↔ (registry.best view revised name arguments).result hierarchy
            = some (winner, score))) := by
  refine ⟨fun item => ⟨itemScore_of_converts, itemScore_of_not_converts, ?_⟩,
    fun candidates _ _ => result_best_eq_some_iff_exists candidates, ?_⟩
  · intro hfew hconverts
    rw [itemScore_of_converts hconverts, hconverts.toNat_wordScore hfew]
  · intro candidates revised winner score hsame
    rw [result_best_eq_some_iff, result_best_eq_some_iff, hsame.lowestFirst_iff]

end Selection

end ClassAtlas.AliasRegistry
