import ClassAtlas.Walk
import Mathlib.Data.List.Nodup
import Mathlib.Logic.Relation

/-!
# Walks with room enough

The limit of a walk only has to cover the keys of nodes with successors that are
not visited yet: every such visit uses one of them up. Above that number the
limit makes no difference: the walk comes to an end of its own, as it would
without a limit, and nothing that is pending is left out.
-/

namespace ClassAtlas.Walk

variable {β κ : Type} {key : β → κ} {next : β → List β}

/-! ## Walks without a limit -/

/-- The walk without a limit: from some pending nodes, behind the nodes visited so far, it
comes to an end, and `result` lists all visited nodes in order. -/
inductive Completes (key : β → κ) (next : β → List β) : (pending visited result : List β) → Prop where
  /-- Nothing is pending. -/
  | done {visited : List β} : Completes key next [] visited visited.reverse
  /-- A node of a visited key is skipped. -/
  | skip {node : β} {pending visited result : List β} (h : key node ∈ visited.map key)
      (rest : Completes key next pending visited result) :
      Completes key next (node :: pending) visited result
  /-- A node of a new key is visited, and its successors come first. -/
  | visit {node : β} {pending visited result : List β} (h : key node ∉ visited.map key)
      (rest : Completes key next (next node ++ pending) (node :: visited) result) :
      Completes key next (node :: pending) visited result

namespace Completes

variable {pending visited result : List β}

/-- A walk has one outcome only. -/
theorem unique {other : List β} (h : Completes key next pending visited result)
    (h' : Completes key next pending visited other) : result = other := by
  induction h with
  | done =>
    cases h' with
    | done => rfl
  | skip hold _ ih =>
    cases h' with
    | skip _ rest => exact ih rest
    | visit hnew _ => exact absurd hold hnew
  | visit hnew _ ih =>
    cases h' with
    | skip hold _ => exact absurd hold hnew
    | visit _ rest => exact ih rest

/-- What is visited stays in front. -/
theorem starts_with_visited (h : Completes key next pending visited result) :
    visited.reverse <+: result := by
  induction h with
  | done => exact List.prefix_refl _
  | skip _ _ ih => exact ih
  | visit _ _ ih =>
    rw [List.reverse_cons] at ih
    exact (List.prefix_append _ _).trans ih

/-- What has been visited is in the result. -/
theorem mem_of_mem_visited (h : Completes key next pending visited result) {node : β}
    (hnode : node ∈ visited) : node ∈ result :=
  h.starts_with_visited.subset (List.mem_reverse.2 hnode)

/-- No key is visited twice. -/
theorem nodup_keys (h : Completes key next pending visited result)
    (hvisited : (visited.map key).Nodup) : (result.map key).Nodup := by
  induction h with
  | done =>
    rw [List.map_reverse]
    exact List.nodup_reverse.2 hvisited
  | skip _ _ ih => exact ih hvisited
  | visit hnew _ ih => exact ih (List.nodup_cons.2 ⟨hnew, hvisited⟩)

/-- Everything that is visited was pending or can be reached from there. -/
theorem mem_cases (h : Completes key next pending visited result) {node : β}
    (hnode : node ∈ result) :
    node ∈ visited
      ∨ ∃ start ∈ pending, Relation.ReflTransGen (fun lower upper => upper ∈ next lower) start node := by
  induction h with
  | done => exact .inl (List.mem_reverse.1 hnode)
  | skip _ _ ih =>
    rcases ih hnode with hvisited | ⟨start, hstart, hreach⟩
    · exact .inl hvisited
    · exact .inr ⟨start, List.mem_cons_of_mem _ hstart, hreach⟩
  | @visit current pending visited _ _ _ ih =>
    rcases ih hnode with hvisited | ⟨start, hstart, hreach⟩
    · rcases List.mem_cons.1 hvisited with rfl | hbefore
      · exact .inr ⟨node, List.mem_cons_self, .refl⟩
      · exact .inl hbefore
    · rcases List.mem_append.1 hstart with hnext | hpending
      · exact .inr ⟨current, List.mem_cons_self, .head hnext hreach⟩
      · exact .inr ⟨start, List.mem_cons_of_mem _ hpending, hreach⟩

/-- Nothing that is pending is left out. -/
theorem mem_keys_of_pending (h : Completes key next pending visited result) {node : β}
    (hnode : node ∈ pending) : key node ∈ result.map key := by
  induction h with
  | done => cases hnode
  | @skip current _ visited _ hold rest ih =>
    rcases List.mem_cons.1 hnode with rfl | hpending
    · obtain ⟨earlier, hearlier, hkey⟩ := List.mem_map.1 hold
      exact List.mem_map.2 ⟨earlier, rest.mem_of_mem_visited hearlier, hkey⟩
    · exact ih hpending
  | visit _ rest ih =>
    rcases List.mem_cons.1 hnode with rfl | hpending
    · exact List.mem_map_of_mem (rest.mem_of_mem_visited List.mem_cons_self)
    · exact ih (List.mem_append_right _ hpending)

end Completes

/-! ## Limits -/

variable [DecidableEq κ]

/-- Whether a node of a key was visited. -/
def isVisited (key : β → κ) (visited : List β) (found : κ) : Bool :=
  visited.any fun other => key other = found

theorem isVisited_eq_true_iff {visited : List β} {found : κ} :
    isVisited key visited found = true ↔ found ∈ visited.map key := by
  simp [isVisited]

theorem isVisited_eq_false_iff {visited : List β} {found : κ} :
    isVisited key visited found = false ↔ found ∉ visited.map key := by
  rw [← isVisited_eq_true_iff, Bool.not_eq_true]

section Sweep

variable {deeper : List β → List β → List β} {node : β} {pending visited : List β}

/-- A node of a visited key is skipped. -/
theorem sweep_of_visited (h : isVisited key visited (key node) = true) :
    sweep key next deeper (node :: pending) visited = sweep key next deeper pending visited := by
  rw [sweep]
  exact if_pos h

/-- A node without successors is visited in passing. -/
theorem sweep_of_next_eq_nil (h : isVisited key visited (key node) = false)
    (hnext : next node = []) :
    sweep key next deeper (node :: pending) visited
      = sweep key next deeper pending (node :: visited) := by
  rw [sweep, hnext]
  exact if_neg (Bool.eq_false_iff.1 h)

/-- A node with successors ends the sweep. -/
theorem sweep_of_next_ne_nil (h : isVisited key visited (key node) = false)
    (hnext : next node ≠ []) :
    sweep key next deeper (node :: pending) visited
      = deeper (next node ++ pending) (node :: visited) := by
  obtain ⟨first, successors, hcons⟩ := List.exists_cons_of_ne_nil hnext
  rw [sweep, hcons]
  exact if_neg (Bool.eq_false_iff.1 h)

end Sweep

/-- The number of listed keys that were not visited. -/
def unvisited (key : β → κ) (keys : List κ) (visited : List β) : Nat :=
  (keys.filter fun found => !isVisited key visited found).length

theorem unvisited_le_length (keys : List κ) (visited : List β) :
    unvisited key keys visited ≤ keys.length :=
  List.length_filter_le _ _

/-- Visiting a node leaves no other keys unvisited than before. -/
theorem unvisited_sublist (keys : List κ) (node : β) (visited : List β) :
    (keys.filter fun found => !isVisited key (node :: visited) found).Sublist
      (keys.filter fun found => !isVisited key visited found) := by
  refine List.monotone_filter_right keys fun found hfound => ?_
  simp only [isVisited, List.any_cons, Bool.not_or, Bool.and_eq_true] at hfound ⊢
  exact hfound.2

theorem unvisited_cons_le (keys : List κ) (node : β) (visited : List β) :
    unvisited key keys (node :: visited) ≤ unvisited key keys visited :=
  (unvisited_sublist keys node visited).length_le

/-- Visiting a node of a listed key for the first time uses the key up. -/
theorem unvisited_cons_lt {keys : List κ} {node : β} {visited : List β} (hmem : key node ∈ keys)
    (hnew : isVisited key visited (key node) = false) :
    unvisited key keys (node :: visited) < unvisited key keys visited := by
  refine Nat.lt_of_le_of_ne (unvisited_cons_le keys node visited) fun hlength => ?_
  have hsame := (unvisited_sublist keys node visited).eq_of_length hlength
  have hleft : key node ∈ keys.filter fun found => !isVisited key visited found :=
    List.mem_filter.2 ⟨hmem, by simp [hnew]⟩
  rw [← hsame] at hleft
  have hright := (List.mem_filter.1 hleft).2
  simp [isVisited] at hright

section Bounded

variable {reached : β → Prop} {keys : List κ}
  (hclosed : ∀ node, reached node → ∀ successor ∈ next node, reached successor)
  (hkeys : ∀ node, reached node → next node ≠ [] → key node ∈ keys)

include hclosed hkeys

/-- A sweep completes the walk when what follows it does, where fewer keys are left. The
induction is on the pending nodes. -/
theorem completes_sweep {deeper : List β → List β → List β} {room : Nat}
    (hdeeper : ∀ pending visited, (∀ node ∈ pending, reached node) →
      unvisited key keys visited < room →
        Completes key next pending visited (deeper pending visited))
    {pending visited : List β} (hpending : ∀ node ∈ pending, reached node)
    (hroom : unvisited key keys visited ≤ room) :
    Completes key next pending visited (sweep key next deeper pending visited) := by
  induction pending generalizing visited with
  | nil => exact .done
  | cons node pending ih =>
    have hnode := hpending node List.mem_cons_self
    have hrest : ∀ other ∈ pending, reached other :=
      fun other hother => hpending other (List.mem_cons_of_mem _ hother)
    cases hvisited : isVisited key visited (key node) with
    | true =>
      rw [sweep_of_visited hvisited]
      exact .skip (isVisited_eq_true_iff.1 hvisited) (ih hrest hroom)
    | false =>
      refine .visit (isVisited_eq_false_iff.1 hvisited) ?_
      by_cases hnext : next node = []
      · rw [sweep_of_next_eq_nil hvisited hnext, hnext]
        exact ih hrest (Nat.le_trans (unvisited_cons_le keys node visited) hroom)
      · rw [sweep_of_next_ne_nil hvisited hnext]
        refine hdeeper _ _ ?_ ?_
        · exact List.forall_mem_append.2 ⟨hclosed node hnode, hrest⟩
        · exact Nat.lt_of_lt_of_le (unvisited_cons_lt (hkeys node hnode hnext) hvisited) hroom

/-- A limit that covers the keys that are left completes the walk. The induction is on the
limit. -/
theorem completes_walk {limit : Nat} {pending visited : List β}
    (hpending : ∀ node ∈ pending, reached node) (hroom : unvisited key keys visited ≤ limit) :
    Completes key next pending visited (walk key next limit pending visited) := by
  induction limit generalizing pending visited with
  | zero =>
    exact completes_sweep hclosed hkeys (fun _ _ _ hlt => absurd hlt (Nat.not_lt_zero _))
      hpending hroom
  | succ limit ih =>
    exact completes_sweep hclosed hkeys
      (fun _ _ hreached hlt => ih hreached (Nat.le_of_lt_succ hlt)) hpending hroom

/-- A limit that covers all keys completes the walk from some starting nodes. -/
theorem completes_visits {limit : Nat} (hlimit : keys.length ≤ limit) {start : List β}
    (hstart : ∀ node ∈ start, reached node) :
    Completes key next start [] (visits key next limit start) :=
  completes_walk hclosed hkeys hstart (Nat.le_trans (unvisited_le_length keys []) hlimit)

end Bounded

end ClassAtlas.Walk
