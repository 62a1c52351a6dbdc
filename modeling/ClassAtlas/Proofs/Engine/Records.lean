import ClassAtlas.Engine.Completions
import ClassAtlas.Proofs.Library.Ownership
import ClassAtlas.Proofs.Walk

/-!
# Records and the walks through them

A record is made for a declaration, and what it extends is asked for the same
choice of members. Only declarations that are in the cache, or that can be looked
up in the index, have extensions at all. There are finitely many of them, which
is why the walks through the records come to an end of their own.
-/

namespace ClassAtlas

/-! ## Records as they are made -/

/-- A step of `Member.firstByKey` keeps the keys distinct. -/
theorem Member.nodup_keys_foldl (members : List Member) {kept : List Member}
    (hkept : (kept.map (·.key)).Nodup) :
    ((members.foldl
      (fun kept member => if kept.any (·.key = member.key) then kept else member :: kept)
      kept).map (·.key)).Nodup := by
  induction members generalizing kept with
  | nil => exact hkept
  | cons member members ih =>
    rw [List.foldl_cons]
    by_cases htaken : kept.any (·.key = member.key) = true
    · rw [if_pos htaken]
      exact ih hkept
    · rw [if_neg htaken]
      have hnew : member.key ∉ kept.map (·.key) := by
        intro hmem
        obtain ⟨other, hother, hkey⟩ := List.mem_map.1 hmem
        exact htaken (List.any_eq_true.2 ⟨other, hother, decide_eq_true hkey⟩)
      exact ih (List.nodup_cons.2 ⟨hnew, hkept⟩)

/-- Of each key, one member is kept. -/
theorem Member.nodup_keys_firstByKey (members : List Member) :
    ((Member.firstByKey members).map (·.key)).Nodup := by
  rw [Member.firstByKey, List.map_reverse]
  exact List.nodup_reverse.2 (Member.nodup_keys_foldl members List.nodup_nil)

/-- A record as it is made for a declaration. -/
structure ResolvedType.MadeFor (declaration : TypeDeclaration) (resolved : ResolvedType) : Prop where
  /-- The record tells the declaration. -/
  declaration_eq : resolved.declaration = declaration
  /-- No two members have the same key. -/
  keys_distinct : (resolved.members.map (·.key)).Nodup
  /-- The types it extends are asked for the same choice of members. -/
  staticsOnly_eq : ∀ extended ∈ resolved.extensions, extended.staticsOnly = declaration.staticsOnly

namespace Engine

variable {tree : FileTree} {engine : Engine} {declaration : TypeDeclaration}

/-- A declaration without a cached record has a fresh one. -/
theorem record_of_cached?_eq_none (h : engine.cached? declaration = none) :
    engine.record tree declaration = engine.freshRecord tree declaration := by
  rw [record, h]

/-- The record of a type is the one that is kept, if there is one. -/
theorem record_of_cached? {cached : CachedType} (h : engine.cached? declaration = some cached) :
    engine.record tree declaration = cached.resolved := by
  rw [record, h]

/-- A fresh record is made for its declaration. -/
theorem freshRecord_madeFor (tree : FileTree) (engine : Engine) (declaration : TypeDeclaration) :
    (engine.freshRecord tree declaration).MadeFor declaration := by
  unfold freshRecord
  cases engine.description? tree declaration with
  | none => exact ⟨rfl, List.nodup_nil, by simp [ResolvedType.missing]⟩
  | some description =>
    refine ⟨rfl, Member.nodup_keys_firstByKey _, fun extended hextended => ?_⟩
    obtain ⟨name, _, rfl⟩ := List.mem_map.1 hextended
    rfl

/-- Only names that can be looked up have extensions. -/
theorem mem_lookupNames_of_extensions
    (h : (engine.freshRecord tree declaration).extensions ≠ []) :
    declaration.qualifiedName ∈ engine.index.lookupNames := by
  have hserved : engine.index.served? declaration.qualifiedName ""
      engine.config.defaultPackages ≠ none := by
    intro hnone
    have hdescription : engine.description? tree declaration = none := by
      rw [description?, LibraryIndex.lookupIn?, hnone]
    rw [freshRecord, hdescription] at h
    exact h rfl
  exact LibraryIndex.mem_lookupNames_of_served? hserved

/-- An engine over a coherent index, whose records were made for their declarations. -/
structure WellFormed (engine : Engine) : Prop where
  /-- The index is coherent. -/
  coherent : engine.index.Coherent
  /-- Every record was made for its declaration, at some time and from some files. -/
  cached_madeFor : ∀ declaration cached, engine.cached? declaration = some cached →
    cached.resolved.MadeFor declaration

/-- In a well-formed engine every record is made for its declaration. -/
theorem WellFormed.record_madeFor (h : engine.WellFormed) (tree : FileTree)
    (declaration : TypeDeclaration) : (engine.record tree declaration).MadeFor declaration := by
  cases hcached : engine.cached? declaration with
  | none =>
    rw [record_of_cached?_eq_none hcached]
    exact freshRecord_madeFor tree engine declaration
  | some cached =>
    rw [record_of_cached? hcached]
    exact h.cached_madeFor declaration cached hcached

/-- Conversely, an engine with a coherent index is well formed if all of its records are made for
their declarations. -/
theorem wellFormed_of_record_madeFor (tree : FileTree) (hcoherent : engine.index.Coherent)
    (hrecord : ∀ declaration, (engine.record tree declaration).MadeFor declaration) :
    engine.WellFormed := by
  refine ⟨hcoherent, fun declaration cached hcached => ?_⟩
  have hmade := hrecord declaration
  rwa [record_of_cached? hcached] at hmade

/-! ## Walks through the records -/

/-- The declarations that may have extensions: those in the cache, and those that can be
looked up, with one choice of members. -/
def extendingDeclarations (engine : Engine) (staticsOnly : Bool) : List TypeDeclaration :=
  engine.cache.keys ++ engine.index.lookupNames.map fun name => ⟨name, staticsOnly⟩

/-- There are as many declarations that may extend others as the bound says. -/
theorem length_extendingDeclarations (engine : Engine) (staticsOnly : Bool) :
    (engine.extendingDeclarations staticsOnly).length = engine.extendingBound := by
  rw [extendingDeclarations, List.length_append, List.length_map, extendingBound]

theorem mem_extendingDeclarations (h : (engine.record tree declaration).extensions ≠ []) :
    declaration ∈ engine.extendingDeclarations declaration.staticsOnly := by
  cases hcached : engine.cached? declaration with
  | none =>
    rw [record_of_cached?_eq_none hcached] at h
    exact List.mem_append_right _
      (List.mem_map.2 ⟨_, mem_lookupNames_of_extensions h, rfl⟩)
  | some cached =>
    have hkey : engine.cache.get? declaration ≠ none := by
      rw [← cached?, hcached]
      exact Option.some_ne_none cached
    exact List.mem_append_left _ (Table.mem_keys_of_get?_ne_none hkey)

/-- A walk from a declaration along the extensions of the records comes to an end, in whatever
order it takes them and whatever its steps carry along. -/
theorem WellFormed.completes_visits {β : Type} {view : β → TypeDeclaration}
    {next : β → List β} (h : engine.WellFormed)
    (hnext : ∀ step, ∀ above ∈ next step,
      view above ∈ (engine.record tree (view step)).extensions) (start : β) :
    Walk.Completes view next [start] [] (Walk.visits view next engine.extendingBound [start]) := by
  have hclosed : ∀ step, (view step).staticsOnly = (view start).staticsOnly →
      ∀ above ∈ next step, (view above).staticsOnly = (view start).staticsOnly := by
    intro step hstep above habove
    rw [(h.record_madeFor tree (view step)).staticsOnly_eq _ (hnext step above habove), hstep]
  have hkeys : ∀ step, (view step).staticsOnly = (view start).staticsOnly →
      next step ≠ [] →
        view step ∈ engine.extendingDeclarations (view start).staticsOnly := by
    intro step hstep hsome
    obtain ⟨above, habove⟩ := List.exists_mem_of_ne_nil _ hsome
    rw [← hstep]
    exact mem_extendingDeclarations (List.ne_nil_of_mem (hnext step above habove))
  have hbound := length_extendingDeclarations engine (view start).staticsOnly
  refine Walk.completes_visits hclosed hkeys (Nat.le_of_eq hbound) fun step hstep => ?_
  rw [List.mem_singleton.1 hstep]

/-- The walk that resolves a declaration comes to an end. -/
theorem WellFormed.completes_chain (h : engine.WellFormed) (tree : FileTree)
    (declaration : TypeDeclaration) :
    Walk.Completes id (fun lower => (engine.record tree lower).extensions.reverse)
      [declaration] [] (engine.chain tree declaration) :=
  h.completes_visits (fun _ _ hupper => List.mem_reverse.1 hupper) declaration

/-- The steps above a step go to the extensions of its declaration. -/
theorem map_declaration_stepsAbove (step : ChainStep) :
    (engine.stepsAbove tree step).map (·.declaration)
      = (engine.record tree step.declaration).extensions := by
  rw [stepsAbove, List.map_map]
  exact List.map_id _

/-- The walk that collects completions comes to an end. -/
theorem WellFormed.completes_contributions (h : engine.WellFormed) (tree : FileTree)
    (declaration : TypeDeclaration) :
    Walk.Completes ChainStep.declaration (engine.stepsAbove tree) [⟨declaration, []⟩] []
      (engine.contributions tree declaration) := by
  have hnext : ∀ step : ChainStep, ∀ above ∈ engine.stepsAbove tree step,
      above.declaration ∈ (engine.record tree step.declaration).extensions := by
    intro step above habove
    rw [← map_declaration_stepsAbove]
    exact List.mem_map_of_mem habove
  exact h.completes_visits hnext ⟨declaration, []⟩

/-- With the same records, the same types contribute to the completions, although the bounds
of the two walks differ with the number of cached records. -/
theorem WellFormed.contributions_congr {first second : Engine} (hfirst : first.WellFormed)
    (hsecond : second.WellFormed) (hrecord : first.record tree = second.record tree) :
    first.contributions tree declaration = second.contributions tree declaration := by
  have hsteps : first.stepsAbove tree = second.stepsAbove tree := by
    funext step
    unfold stepsAbove
    rw [hrecord]
  have hwalk := hfirst.completes_contributions tree declaration
  rw [hsteps] at hwalk
  exact hwalk.unique (hsecond.completes_contributions tree declaration)

/-- Completions depend on the records alone. -/
theorem WellFormed.completions_congr {first second : Engine} (hfirst : first.WellFormed)
    (hsecond : second.WellFormed) (hrecord : first.record tree = second.record tree) :
    first.completions tree declaration = second.completions tree declaration := by
  have hcontributed : first.contributed tree = second.contributed tree := by
    funext step
    unfold contributed
    rw [hrecord]
  unfold completions
  rw [hfirst.contributions_congr hsecond hrecord, hcontributed]

end Engine

end ClassAtlas
