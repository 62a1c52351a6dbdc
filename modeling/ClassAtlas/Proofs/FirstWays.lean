import ClassAtlas.Proofs.Walk

/-!
# The way on which a walk comes to a node

A walk goes from a node to its first successor, and to a later one only when
everything that can be reached from the earlier ones is behind it. So it comes to
a node on one way out of all the ways that lead there: at every fork, it takes the
first branch from which the node can still be reached without going back. This
way is described by the graph alone; the walk, with its pending and visited nodes,
does not occur in it.
-/

namespace ClassAtlas.Walk

variable {κ : Type} {succ : κ → List κ}

/-! ## Ways around some keys -/

/-- Whether one key can be reached from another around some keys. -/
inductive Reaches (succ : κ → List κ) (avoided : List κ) : κ → κ → Prop where
  /-- A key reaches itself unless it is avoided. -/
  | refl {a : κ} (ha : a ∉ avoided) : Reaches succ avoided a a
  /-- A key reaches what one of its successors reaches. -/
  | head {a b c : κ} (ha : a ∉ avoided) (hab : b ∈ succ a) (hbc : Reaches succ avoided b c) :
      Reaches succ avoided a c

namespace Reaches

variable {avoided more : List κ} {a b c : κ}

theorem start_notMem (h : Reaches succ avoided a c) : a ∉ avoided := by
  cases h with
  | refl ha => exact ha
  | head ha _ _ => exact ha

theorem target_notMem (h : Reaches succ avoided a c) : c ∉ avoided := by
  induction h with
  | refl ha => exact ha
  | head _ _ _ ih => exact ih

theorem trans (h : Reaches succ avoided a b) (h' : Reaches succ avoided b c) :
    Reaches succ avoided a c := by
  induction h with
  | refl _ => exact h'
  | head ha hab _ ih => exact .head ha hab (ih h')

/-- A way around more keys is a way around fewer. -/
theorem mono (hsubset : avoided ⊆ more) (h : Reaches succ more a c) :
    Reaches succ avoided a c := by
  induction h with
  | refl ha => exact .refl fun hmem => ha (hsubset hmem)
  | head ha hab _ ih => exact .head (fun hmem => ha (hsubset hmem)) hab ih

/-- Keys from which the target cannot be reached are on no way to it. -/
theorem around_more (hmore : ∀ w ∈ more, w ∈ avoided ∨ ¬ Reaches succ avoided w c)
    (h : Reaches succ avoided a c) : Reaches succ more a c := by
  have hoff : ∀ {w : κ}, Reaches succ avoided w c → w ∉ more := by
    intro w hw hmem
    rcases hmore w hmem with havoided | hnone
    · exact hw.start_notMem havoided
    · exact hnone hw
  induction h with
  | refl ha => exact .refl (hoff (.refl ha))
  | head ha hab hbc ih => exact .head (hoff (.head ha hab hbc)) hab (ih hmore hoff)

/-- A way either avoids a given key, or its end can be reached from that key without coming
back to it. The induction is on the way, from its end: the last time the key is met counts. -/
theorem around_or_from (w : κ) (h : Reaches succ avoided a c) :
    Reaches succ (w :: avoided) a c ∨ w = c
      ∨ ∃ b ∈ succ w, Reaches succ (w :: avoided) b c := by
  induction h with
  | @refl a ha =>
    by_cases hw : w = a
    · exact .inr (.inl hw)
    · exact .inl (.refl fun hmem => (List.mem_cons.1 hmem).elim (fun h => hw h.symm) ha)
  | @head a b c ha hab _ ih =>
    rcases ih with haround | hrest
    · by_cases hw : a = w
      · subst hw
        exact .inr (.inr ⟨b, hab, haround⟩)
      · exact .inl (.head (fun hmem => (List.mem_cons.1 hmem).elim hw ha) hab haround)
    · exact .inr hrest

/-- What a key reaches is the key itself, or is reached from one of its successors without
coming back to the key. -/
theorem eq_or_step (h : Reaches succ avoided a c) :
    a = c ∨ ∃ b ∈ succ a, Reaches succ (a :: avoided) b c := by
  rcases h.around_or_from a with haround | hrest
  · exact absurd List.mem_cons_self haround.start_notMem
  · exact hrest

/-- Around no keys, this is reachability. -/
theorem nil_iff : Reaches succ [] a c
    ↔ Relation.ReflTransGen (fun lower upper => upper ∈ succ lower) a c := by
  constructor
  · intro h
    induction h with
    | refl _ => exact .refl
    | head _ hab _ ih => exact .head hab ih
  · intro h
    induction h using Relation.ReflTransGen.head_induction_on with
    | refl => exact .refl List.not_mem_nil
    | head hab _ ih => exact .head List.not_mem_nil hab ih

end Reaches

/-- A path from one key to another, given by the keys before its target. -/
structure Path (succ : κ → List κ) (a : κ) (way : List κ) (c : κ) : Prop where
  /-- It starts where it should. -/
  starts : (way ++ [c]).head? = some a
  /-- It goes from each key to one of its successors. -/
  steps : (way ++ [c]).IsChain fun lower upper => upper ∈ succ lower
  /-- It comes to no key twice. -/
  distinct : (way ++ [c]).Nodup

/-! ## First ways -/

/-- The way from one key to another, around some keys, that takes at each of its keys the
first successor from which the target can still be reached. `way` lists the keys before the
target; each of them is avoided from then on. -/
inductive FirstWay (succ : κ → List κ) : (avoided : List κ) → κ → (way : List κ) → κ → Prop where
  /-- The way from a key to itself. -/
  | here {avoided : List κ} {a : κ} (ha : a ∉ avoided) : FirstWay succ avoided a [] a
  /-- The earlier successors do not lead to the target. -/
  | up {avoided earlier later way : List κ} {a b c : κ} (ha : a ∉ avoided)
      (hsucc : succ a = earlier ++ b :: later)
      (hearlier : ∀ e ∈ earlier, ¬ Reaches succ (a :: avoided) e c)
      (rest : FirstWay succ (a :: avoided) b way c) : FirstWay succ avoided a (a :: way) c

namespace FirstWay

variable {avoided more way : List κ} {a s c : κ}

/-- A first way leads to its target. -/
theorem reaches (h : FirstWay succ avoided a way c) : Reaches succ avoided a c := by
  induction h with
  | here ha => exact .refl ha
  | @up avoided earlier later way a b c ha hsucc _ _ ih =>
    have hmem : b ∈ succ a := by
      rw [hsucc]
      exact List.mem_append_right _ List.mem_cons_self
    exact .head ha hmem (ih.mono (List.subset_cons_self _ _))

/-- Every key on a first way leads to its target. -/
theorem reaches_of_mem (h : FirstWay succ avoided a way c) (hs : s ∈ way) :
    Reaches succ avoided s c := by
  induction h with
  | here _ => cases hs
  | @up avoided _ _ _ a _ _ ha hsucc hearlier rest ih =>
    rcases List.mem_cons.1 hs with rfl | hrest
    · exact (FirstWay.up ha hsucc hearlier rest).reaches
    · exact (ih hrest).mono (List.subset_cons_self _ _)

/-- A first way is a path. -/
theorem path (h : FirstWay succ avoided a way c) : Path succ a way c := by
  induction h with
  | here _ => exact ⟨rfl, .singleton _, List.nodup_singleton _⟩
  | @up avoided earlier later way a b c ha hsucc _ rest ih =>
    have hb : b ∈ succ a := by
      rw [hsucc]
      exact List.mem_append_right _ List.mem_cons_self
    obtain ⟨behind, hbehind⟩ := List.head?_eq_some_iff.1 ih.starts
    -- whatever comes behind `a` avoids it
    have hnew : a ∉ way ++ [c] := by
      intro hmem
      rcases List.mem_append.1 hmem with hway | hend
      · exact (rest.reaches_of_mem hway).start_notMem List.mem_cons_self
      · rw [List.mem_singleton.1 hend] at rest
        exact rest.reaches.target_notMem List.mem_cons_self
    refine ⟨rfl, ?_, List.nodup_cons.2 ⟨hnew, ih.distinct⟩⟩
    rw [List.cons_append, hbehind]
    exact .cons_cons hb (hbehind ▸ ih.steps)

/-- The target is not on the way. -/
theorem ne_of_mem (h : FirstWay succ avoided a way c) (hs : s ∈ way) : s ≠ c := by
  intro heq
  exact List.disjoint_of_nodup_append h.path.distinct hs (List.mem_singleton.2 heq)

/-- Up to each of its keys, a first way is the first way to that key: an earlier branch that
led to the key would lead on to the target. -/
theorem before {front back : List κ} (h : FirstWay succ avoided a (front ++ s :: back) c) :
    FirstWay succ avoided a front s := by
  induction front generalizing avoided a with
  | nil =>
    cases h with
    | up ha _ _ _ => exact .here ha
  | cons first front ih =>
    cases h with
    | @up _ earlier later _ _ b _ ha hsucc hearlier rest =>
      have hon : Reaches succ (first :: avoided) s c :=
        rest.reaches_of_mem (List.mem_append_right _ List.mem_cons_self)
      exact .up ha hsucc (fun e he hreach => hearlier e he (hreach.trans hon)) (ih rest)

/-- The first successor that leads to a target is determined. -/
theorem split_unique {reach : κ → Prop} {earlier earlier' later later' : List κ} {b b' : κ}
    (h : earlier ++ b :: later = earlier' ++ b' :: later') (hb : reach b) (hb' : reach b')
    (hearlier : ∀ e ∈ earlier, ¬ reach e) (hearlier' : ∀ e ∈ earlier', ¬ reach e) : b = b' := by
  rcases List.append_eq_append_iff.1 h with ⟨middle, rfl, hrest⟩ | ⟨middle, rfl, hrest⟩
  · cases middle with
    | nil => exact (List.cons.inj hrest).1
    | cons first middle =>
      rw [(List.cons.inj hrest).1] at hb
      exact absurd hb (hearlier' first (List.mem_append_right _ List.mem_cons_self))
  · cases middle with
    | nil => exact (List.cons.inj hrest).1.symm
    | cons first middle =>
      rw [(List.cons.inj hrest).1] at hb'
      exact absurd hb' (hearlier first (List.mem_append_right _ List.mem_cons_self))

/-- There is only one first way. -/
theorem unique {way' : List κ} (h : FirstWay succ avoided a way c)
    (h' : FirstWay succ avoided a way' c) : way = way' := by
  induction h generalizing way' with
  | here _ =>
    cases h' with
    | here _ => rfl
    | up _ _ _ rest => exact absurd List.mem_cons_self rest.reaches.target_notMem
  | up _ hsucc hearlier rest ih =>
    cases h' with
    | here _ => exact absurd List.mem_cons_self rest.reaches.target_notMem
    | up _ hsucc' hearlier' rest' =>
      have hsame := split_unique (hsucc.symm.trans hsucc') rest.reaches rest'.reaches hearlier
        hearlier'
      subst hsame
      rw [ih rest']

/-- Keys from which the target cannot be reached make no difference to the first way. -/
theorem around_fewer (hsubset : avoided ⊆ more)
    (hmore : ∀ w ∈ more, w ∈ avoided ∨ ¬ Reaches succ avoided w c)
    (h : FirstWay succ more a way c) : FirstWay succ avoided a way c := by
  induction h generalizing avoided with
  | here ha => exact .here fun hmem => ha (hsubset hmem)
  | @up more _ _ _ a _ c ha hsucc hearlier _ ih =>
    have hsubset' : a :: avoided ⊆ a :: more := List.cons_subset_cons a hsubset
    have hmore' : ∀ w ∈ a :: more, w ∈ a :: avoided ∨ ¬ Reaches succ (a :: avoided) w c := by
      intro w hw
      rcases List.mem_cons.1 hw with rfl | hmem
      · exact .inl List.mem_cons_self
      · rcases hmore w hmem with havoided | hnone
        · exact .inl (List.mem_cons_of_mem _ havoided)
        · exact .inr fun hreach => hnone (hreach.mono (List.subset_cons_self _ _))
    refine .up (fun hmem => ha (hsubset hmem)) hsucc (fun e he hreach => ?_) (ih hsubset' hmore')
    exact hearlier e he (hreach.around_more hmore')

end FirstWay

/-! ## Walks take first ways -/

variable {β : Type} {key : β → κ} {next : β → List β}

/-- Going from one node to another by successors, past nodes with the given keys. -/
inductive Follows (key : β → κ) (next : β → List β) : β → List κ → β → Prop where
  /-- Staying at a node. -/
  | here {node : β} : Follows key next node [] node
  /-- Going to a successor first. -/
  | up {node successor target : β} {way : List κ} (hnext : successor ∈ next node)
      (rest : Follows key next successor way target) :
      Follows key next node (key node :: way) target

/-- An element before which all others fail a test stands in the first of two lists that
holds some element that passes it. -/
theorem split_in_front {reach : β → Prop} {front back earlier later : List β} {first : β}
    (h : front ++ back = earlier ++ first :: later) (hearlier : ∀ e ∈ earlier, ¬ reach e)
    (hfront : ∃ e ∈ front, reach e) : ∃ between, front = earlier ++ first :: between := by
  obtain ⟨found, hmem, hfound⟩ := hfront
  rcases List.append_eq_append_iff.1 h with ⟨middle, rfl, _⟩ | ⟨middle, rfl, hrest⟩
  · exact absurd hfound (hearlier found (List.mem_append_left _ hmem))
  · cases middle with
    | nil =>
      rw [List.append_nil] at hmem
      exact absurd hfound (hearlier found hmem)
    | cons other middle =>
      obtain ⟨rfl, _⟩ := List.cons.inj hrest
      exact ⟨middle, rfl⟩

/-- When the first list holds none that passes, the element stands in the second. -/
theorem split_in_back {reach : β → Prop} {front back earlier later : List β} {first : β}
    (h : front ++ back = earlier ++ first :: later) (hfirst : reach first)
    (hfront : ∀ e ∈ front, ¬ reach e) :
    ∃ between, earlier = front ++ between ∧ back = between ++ first :: later := by
  rcases List.append_eq_append_iff.1 h with ⟨middle, hearlier, hback⟩ | ⟨middle, rfl, hrest⟩
  · exact ⟨middle, hearlier, hback⟩
  · cases middle with
    | nil => exact ⟨[], by simp, by simpa using hrest.symm⟩
    | cons other middle =>
      obtain ⟨rfl, _⟩ := List.cons.inj hrest
      exact absurd hfirst (hfront _ (List.mem_append_right _ List.mem_cons_self))

variable (hsucc : ∀ node, (next node).map key = succ (key node))

include hsucc

/-- A walk comes to every key that can be reached around the visited ones. It comes there
from the first pending node from which the key can be reached, on the first way. The
induction is on the walk. -/
theorem Completes.exists_firstWay {pending visited result : List β} {c : κ}
    (h : Completes key next pending visited result)
    (hreach : ∃ node ∈ pending, Reaches succ (visited.map key) (key node) c) :
    ∃ earlier start later way target, pending = earlier ++ start :: later
      ∧ (∀ node ∈ earlier, ¬ Reaches succ (visited.map key) (key node) c)
      ∧ FirstWay succ (visited.map key) (key start) way c
      ∧ Follows key next start way target ∧ key target = c ∧ target ∈ result := by
  induction h with
  | done =>
    obtain ⟨node, hnode, _⟩ := hreach
    cases hnode
  | @skip node pending visited result hold _ ih =>
    have hoff : ¬ Reaches succ (visited.map key) (key node) c := fun h => h.start_notMem hold
    obtain ⟨found, hmem, hfound⟩ := hreach
    have hrest : found ∈ pending := by
      rcases List.mem_cons.1 hmem with rfl | hrest
      · exact absurd hfound hoff
      · exact hrest
    obtain ⟨earlier, start, later, way, target, rfl, hearlier, hway⟩ := ih ⟨found, hrest, hfound⟩
    exact ⟨node :: earlier, start, later, way, target, rfl,
      List.forall_mem_cons.2 ⟨hoff, hearlier⟩, hway⟩
  | @visit node pending visited result hnew rest ih =>
    rw [List.map_cons] at ih
    by_cases hnode : Reaches succ (visited.map key) (key node) c
    · rcases hnode.eq_or_step with rfl | ⟨b, hb, hstep⟩
      · exact ⟨[], node, pending, [], node, rfl, by simp, .here hnew, .here, rfl,
          rest.mem_of_mem_visited List.mem_cons_self⟩
      -- the key is found behind the first successor that leads to it
      · rw [← hsucc, List.mem_map] at hb
        obtain ⟨successor, hsuccessor, rfl⟩ := hb
        obtain ⟨earlier, start, later, way, target, hsplit, hearlier, hway, hfollows, hkey, hmem⟩ :=
          ih ⟨successor, List.mem_append_left _ hsuccessor, hstep⟩
        obtain ⟨between, hnext⟩ := split_in_front hsplit hearlier ⟨successor, hsuccessor, hstep⟩
        have hsplit' : succ (key node) = earlier.map key ++ key start :: between.map key := by
          rw [← hsucc, hnext, List.map_append, List.map_cons]
        have hfirst : ∀ e ∈ earlier.map key,
            ¬ Reaches succ (key node :: visited.map key) e c := by
          intro e he
          obtain ⟨other, hother, rfl⟩ := List.mem_map.1 he
          exact hearlier other hother
        have hstart : start ∈ next node := by
          rw [hnext]
          exact List.mem_append_right _ List.mem_cons_self
        exact ⟨[], node, pending, key node :: way, target, rfl, by simp,
          .up hnew hsplit' hfirst hway, .up hstart hfollows, hkey, hmem⟩
    -- the node does not lead to the key, and neither do its successors
    · have hnexts : ∀ e ∈ next node, ¬ Reaches succ (key node :: visited.map key) (key e) c := by
        intro e he hfrom
        have hmem : key e ∈ succ (key node) := by
          rw [← hsucc]
          exact List.mem_map_of_mem he
        exact hnode (.head hnew hmem (hfrom.mono (List.subset_cons_self _ _)))
      have hmore : ∀ w ∈ key node :: visited.map key,
          w ∈ visited.map key ∨ ¬ Reaches succ (visited.map key) w c := by
        intro w hw
        rcases List.mem_cons.1 hw with rfl | hmem
        · exact .inr hnode
        · exact .inl hmem
      obtain ⟨found, hmem, hfound⟩ := hreach
      have hpending : found ∈ pending := by
        rcases List.mem_cons.1 hmem with rfl | hpending
        · exact absurd hfound hnode
        · exact hpending
      obtain ⟨earlier, start, later, way, target, hsplit, hearlier, hway, hrest⟩ :=
        ih ⟨found, List.mem_append_right _ hpending, hfound.around_more hmore⟩
      obtain ⟨between, rfl, rfl⟩ := split_in_back hsplit hway.reaches hnexts
      refine ⟨node :: between, start, later, way, target, rfl, ?_,
        hway.around_fewer (List.subset_cons_self _ _) hmore, hrest⟩
      refine List.forall_mem_cons.2 ⟨hnode, fun other hother hreach => ?_⟩
      exact hearlier other (List.mem_append_right _ hother) (hreach.around_more hmore)

/-- From one node, a walk comes to every key that can be reached, on the first way. -/
theorem Completes.exists_firstWay_of_start {start : β} {result : List β} {c : κ}
    (h : Completes key next [start] [] result)
    (hreach : Relation.ReflTransGen (fun lower upper => upper ∈ succ lower) (key start) c) :
    ∃ way target, FirstWay succ [] (key start) way c ∧ Follows key next start way target
      ∧ key target = c ∧ target ∈ result := by
  obtain ⟨earlier, first, later, way, target, hsplit, _, hrest⟩ :=
    h.exists_firstWay hsucc ⟨start, List.mem_singleton_self start, Reaches.nil_iff.2 hreach⟩
  have hfirst : first = start := by
    have hmem : first ∈ [start] := by
      rw [hsplit]
      exact List.mem_append_right _ List.mem_cons_self
    exact List.mem_singleton.1 hmem
  rw [hfirst] at hrest
  exact ⟨way, target, hrest⟩

/-- A walk visits exactly the keys that can be reached from the nodes it starts with. -/
theorem Completes.mem_keys_iff_exists {starts result : List β}
    (h : Completes key next starts [] result) (found : κ) :
    found ∈ result.map key
      ↔ ∃ start ∈ starts,
        Relation.ReflTransGen (fun lower upper => upper ∈ succ lower) (key start) found := by
  constructor
  · intro hfound
    obtain ⟨node, hnode, rfl⟩ := List.mem_map.1 hfound
    rcases h.mem_cases hnode with hvisited | ⟨start, hstart, hreach⟩
    · cases hvisited
    · refine ⟨start, hstart, hreach.lift key fun lower upper hupper => ?_⟩
      change key upper ∈ succ (key lower)
      rw [← hsucc]
      exact List.mem_map_of_mem hupper
  · rintro ⟨start, hstart, hreach⟩
    obtain ⟨_, _, _, _, target, _, _, _, _, rfl, hmem⟩ :=
      h.exists_firstWay hsucc ⟨start, hstart, Reaches.nil_iff.2 hreach⟩
    exact List.mem_map_of_mem hmem

/-- From one node, a walk visits exactly the keys that can be reached. -/
theorem Completes.mem_keys_iff {start : β} {result : List β}
    (h : Completes key next [start] [] result) (found : κ) :
    found ∈ result.map key
      ↔ Relation.ReflTransGen (fun lower upper => upper ∈ succ lower) (key start) found := by
  rw [h.mem_keys_iff_exists hsucc]
  simp only [List.mem_singleton, exists_eq_left]

end ClassAtlas.Walk
