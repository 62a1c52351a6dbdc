import ClassAtlas.Proofs.Engine.States
import ClassAtlas.Proofs.FirstWays

/-!
# What resolving does to the cache

Resolving a declaration follows the extensions of one record after the other, and
every record it looks at is in the cache from then on. On any index and from any
state, also where types extend each other in a circle, this comes to an end. It
leaves a cache that is closed under extensions from the declaration on, in which
nothing has changed but the records that were missing, and each of those was made
once. Resolving again then changes nothing at all.
-/

namespace ClassAtlas.Engine

variable {tree : FileTree} {engine : Engine} {declaration : TypeDeclaration}

/-! ## Extensions -/

/-- Whether a type extends another directly, by its record. -/
def Extends (tree : FileTree) (engine : Engine) (lower upper : TypeDeclaration) : Prop :=
  upper ∈ (engine.record tree lower).extensions

/-- Whether a type extends another directly, by a record in the cache. -/
def CachedExtends (engine : Engine) (lower upper : TypeDeclaration) : Prop :=
  ∃ cached, engine.cached? lower = some cached ∧ upper ∈ cached.resolved.extensions

/-- A declaration is resolved together with everything that its extensions lead to. -/
theorem WellFormed.mem_chain_iff (h : engine.WellFormed) {key : TypeDeclaration} :
    key ∈ engine.chain tree declaration
      ↔ Relation.ReflTransGen (engine.Extends tree) declaration key := by
  have hkeys := (h.completes_chain tree declaration).mem_keys_iff (fun _ => List.map_id _) key
  simp only [List.map_id, id_eq, List.mem_reverse] at hkeys
  exact hkeys

/-- No declaration is resolved twice. -/
theorem WellFormed.nodup_chain (h : engine.WellFormed) (tree : FileTree)
    (declaration : TypeDeclaration) : (engine.chain tree declaration).Nodup := by
  have hkeys := (h.completes_chain tree declaration).nodup_keys List.nodup_nil
  rwa [List.map_id] at hkeys

/-! ## Records one after the other -/

section Populate

variable {key : TypeDeclaration}

/-- After a type has been populated, all types but it are without a record that were before. -/
theorem cached?_populate_eq_none_iff :
    (engine.populate tree declaration).cached? key = none
      ↔ engine.cached? key = none ∧ key ≠ declaration := by
  cases hcached : engine.cached? declaration with
  | some cached =>
    rw [populate_of_cached? hcached]
    refine ⟨fun hkey => ⟨hkey, fun heq => ?_⟩, fun hkey => hkey.1⟩
    rw [heq, hcached] at hkey
    cases hkey
  | none =>
    rw [cached?_populate hcached]
    by_cases heq : key = declaration
    · simp [heq]
    · simp [heq]

/-- A record in the cache stays the same record. -/
theorem cached?_populate_of_cached? {cached : CachedType} (h : engine.cached? key = some cached) :
    (engine.populate tree declaration).cached? key = some cached := by
  cases hcached : engine.cached? declaration with
  | some other =>
    rw [populate_of_cached? hcached]
    exact h
  | none =>
    have hne : key ≠ declaration := by
      intro heq
      rw [heq, hcached] at h
      cases h
    rw [cached?_populate hcached, if_neg hne, h]

/-- Populating is counted for a type that had no record. -/
theorem populations_populate :
    (engine.populate tree declaration).populations
      = engine.populations + if engine.cached? declaration = none then 1 else 0 := by
  cases hcached : engine.cached? declaration with
  | some cached => simp [populate_of_cached? hcached]
  | none => simp [populate, hcached]

variable {declarations : List TypeDeclaration}

/-- After several types have been populated, all others are without a record that were before. -/
theorem cached?_foldl_populate_eq_none_iff :
    (declarations.foldl (populate tree) engine).cached? key = none
      ↔ engine.cached? key = none ∧ key ∉ declarations := by
  induction declarations generalizing engine with
  | nil => simp
  | cons declaration declarations ih =>
    rw [List.foldl_cons, ih, cached?_populate_eq_none_iff, List.mem_cons, not_or, and_assoc]

/-- Records that are there stay as they are. -/
theorem cached?_foldl_populate_of_cached? {cached : CachedType}
    (h : engine.cached? key = some cached) :
    (declarations.foldl (populate tree) engine).cached? key = some cached := by
  induction declarations generalizing engine with
  | nil => exact h
  | cons declaration declarations ih => exact ih (cached?_populate_of_cached? h)

/-- Of distinct declarations, each one without a record is counted. -/
theorem populations_foldl_populate (hdistinct : declarations.Nodup) :
    (declarations.foldl (populate tree) engine).populations
      = engine.populations
        + (declarations.filter fun key => engine.cached? key = none).length := by
  induction declarations generalizing engine with
  | nil => rfl
  | cons declaration declarations ih =>
    obtain ⟨hnew, hrest⟩ := List.nodup_cons.1 hdistinct
    have hsame : (declarations.filter fun key =>
          (engine.populate tree declaration).cached? key = none)
        = declarations.filter fun key => engine.cached? key = none := by
      refine List.filter_congr fun key hkey => ?_
      have hne : key ≠ declaration := fun heq => hnew (heq ▸ hkey)
      simp [cached?_populate_eq_none_iff, hne]
    rw [List.foldl_cons, ih hrest, hsame, populations_populate, List.filter_cons]
    by_cases hcached : engine.cached? declaration = none
    · simp only [hcached, if_true, decide_true, List.length_cons]
      omega
    · simp only [hcached, if_false, decide_false, Bool.false_eq_true, Nat.add_zero]

/-- Where all records are in the cache, nothing happens. -/
theorem foldl_populate_of_cached?
    (h : ∀ key ∈ declarations, engine.cached? key ≠ none) :
    declarations.foldl (populate tree) engine = engine := by
  induction declarations with
  | nil => rfl
  | cons declaration declarations ih =>
    obtain ⟨hfirst, hrest⟩ := List.forall_mem_cons.1 h
    obtain ⟨cached, hcached⟩ := Option.ne_none_iff_exists'.1 hfirst
    rw [List.foldl_cons, populate_of_cached? hcached]
    exact ih hrest

end Populate

/-! ## The loop -/

/-- Resolving pending declarations one by one: a new one gets its record, whose extensions
become pending, the last one first. Nothing bounds the loop; it ends in an engine when
nothing is pending. -/
inductive ResolvesTo (tree : FileTree) :
    (pending visited : List TypeDeclaration) → Engine → Engine → Prop where
  /-- Nothing is pending. -/
  | done {visited : List TypeDeclaration} {engine : Engine} :
      ResolvesTo tree [] visited engine engine
  /-- A declaration that was met before is skipped. -/
  | skip {declaration : TypeDeclaration} {pending visited : List TypeDeclaration}
      {engine last : Engine} (h : declaration ∈ visited)
      (rest : ResolvesTo tree pending visited engine last) :
      ResolvesTo tree (declaration :: pending) visited engine last
  /-- A new declaration gets its record. -/
  | visit {declaration : TypeDeclaration} {pending visited : List TypeDeclaration}
      {engine last : Engine} (h : declaration ∉ visited)
      (rest : ResolvesTo tree
        (((engine.populate tree declaration).record tree declaration).extensions.reverse
          ++ pending)
        (declaration :: visited) (engine.populate tree declaration) last) :
      ResolvesTo tree (declaration :: pending) visited engine last

/-- Making records on the way changes no record, so the loop meets the declarations that the
walk through the records lists. -/
theorem exists_resolvesTo {engine current : Engine} (hcoherent : current.index.Coherent)
    (hrecord : ∀ key, current.record tree key = engine.record tree key)
    {pending visited result : List TypeDeclaration}
    (h : Walk.Completes id (fun lower => (engine.record tree lower).extensions.reverse)
      pending visited result) :
    ∃ later, result = visited.reverse ++ later
      ∧ ResolvesTo tree pending visited current (later.foldl (populate tree) current) := by
  induction h generalizing current with
  | done => exact ⟨[], (List.append_nil _).symm, .done⟩
  | skip hold _ ih =>
    rw [List.map_id] at hold
    obtain ⟨later, hresult, hloop⟩ := ih hcoherent hrecord
    exact ⟨later, hresult, .skip hold hloop⟩
  | @visit node pending visited result hnew _ ih =>
    rw [List.map_id] at hnew
    have hrecord' : ∀ key,
        (current.populate tree node).record tree key = engine.record tree key :=
      fun key => (record_populate hcoherent node key).trans (hrecord key)
    obtain ⟨later, hresult, hloop⟩ := ih (coherent_populate hcoherent node) hrecord'
    rw [← hrecord'] at hloop
    refine ⟨node :: later, ?_, .visit hnew hloop⟩
    rw [hresult, List.reverse_cons, List.append_assoc, List.singleton_append]

/-- The loop comes to an end, and leaves behind the resolved engine. -/
theorem WellFormed.resolvesTo_resolve (h : engine.WellFormed) (tree : FileTree)
    (declaration : TypeDeclaration) :
    ResolvesTo tree [declaration] [] engine (engine.resolve tree declaration) := by
  obtain ⟨later, hchain, hloop⟩ :=
    exists_resolvesTo h.coherent (fun _ => rfl) (h.completes_chain tree declaration)
  rw [resolve, hchain]
  exact hloop

/-! ## The cache afterwards -/

/-- What resolving a declaration does to an engine. -/
structure ResolveCloses (tree : FileTree) (engine : Engine) (declaration : TypeDeclaration) :
    Prop where
  /-- The loop comes to an end. -/
  ends : ResolvesTo tree [declaration] [] engine (engine.resolve tree declaration)
  /-- The records are those from before, and those that the cached extensions lead to. -/
  cached_iff : ∀ key, (engine.resolve tree declaration).cached? key ≠ none
    ↔ engine.cached? key ≠ none
      ∨ Relation.ReflTransGen (engine.resolve tree declaration).CachedExtends declaration key
  /-- The records from before are the same ones, with their serial numbers. -/
  kept : ∀ key cached, engine.cached? key = some cached →
    (engine.resolve tree declaration).cached? key = some cached
  /-- Each record that was missing was made once. -/
  counted : ∃ made : List TypeDeclaration, made.Nodup
    ∧ (∀ key, key ∈ made
      ↔ (engine.resolve tree declaration).cached? key ≠ none ∧ engine.cached? key = none)
    ∧ (engine.resolve tree declaration).populations = engine.populations + made.length
  /-- The answer is the record in the cache. -/
  returned : ∃ cached, (engine.resolve tree declaration).cached? declaration = some cached
    ∧ engine.resolved tree declaration = cached.resolved
  /-- Resolving again changes nothing and gives the same answer. -/
  settled : (engine.resolve tree declaration).resolve tree declaration
      = engine.resolve tree declaration
    ∧ (engine.resolve tree declaration).resolved tree declaration
      = engine.resolved tree declaration

section Resolve

variable (h : engine.WellFormed)

include h

/-- Resolving a declaration keeps an engine well formed. -/
theorem WellFormed.resolve (tree : FileTree) (declaration : TypeDeclaration) :
    (engine.resolve tree declaration).WellFormed := by
  have hstep : Refreshes tree engine (engine.resolve tree declaration) :=
    refreshes_resolve h.coherent declaration
  exact h.of_refreshes hstep

/-- After resolving, exactly those types are without a record that were before and are not reached
from the declaration. -/
theorem WellFormed.cached?_resolve_eq_none_iff {key : TypeDeclaration} :
    (engine.resolve tree declaration).cached? key = none
      ↔ engine.cached? key = none
        ∧ ¬ Relation.ReflTransGen (engine.Extends tree) declaration key := by
  rw [Engine.resolve, cached?_foldl_populate_eq_none_iff, h.mem_chain_iff]

/-- Resolving changes no extensions. -/
theorem WellFormed.extends_resolve :
    (engine.resolve tree declaration).Extends tree = engine.Extends tree := by
  funext lower upper
  rw [Extends, record_resolve h.coherent, Extends]

/-- From the declaration on, the cached extensions are all there are. -/
theorem WellFormed.cachedExtends_resolve_iff {key : TypeDeclaration} :
    Relation.ReflTransGen (engine.resolve tree declaration).CachedExtends declaration key
      ↔ Relation.ReflTransGen (engine.Extends tree) declaration key := by
  have hrecord : ∀ {lower : TypeDeclaration} {cached : CachedType},
      (engine.resolve tree declaration).cached? lower = some cached →
        cached.resolved = engine.record tree lower := by
    intro lower cached hcached
    rw [← record_resolve h.coherent declaration lower, record_of_cached? hcached]
  constructor
  · intro hreach
    refine Relation.ReflTransGen.mono (fun lower upper hextends => ?_) _ _ hreach
    obtain ⟨cached, hcached, hupper⟩ := hextends
    rw [hrecord hcached] at hupper
    exact hupper
  · intro hreach
    induction hreach with
    | refl => exact .refl
    | @tail lower upper hlower hextends ih =>
      have hsome : (engine.resolve tree declaration).cached? lower ≠ none :=
        fun hnone => (h.cached?_resolve_eq_none_iff.1 hnone).2 hlower
      obtain ⟨cached, hcached⟩ := Option.ne_none_iff_exists'.1 hsome
      refine ih.tail ⟨cached, hcached, ?_⟩
      rw [hrecord hcached]
      exact hextends

/-- Resolving counts the types on the chain that had no record. -/
theorem WellFormed.populations_resolve :
    (engine.resolve tree declaration).populations
      = engine.populations
        + ((engine.chain tree declaration).filter fun key => engine.cached? key = none).length :=
  populations_foldl_populate (h.nodup_chain tree declaration)

/-- Resolving a declaration once more changes nothing. -/
theorem WellFormed.resolve_resolve :
    (engine.resolve tree declaration).resolve tree declaration
      = engine.resolve tree declaration := by
  refine foldl_populate_of_cached? fun key hkey hnone => ?_
  rw [(h.resolve tree declaration).mem_chain_iff, h.extends_resolve] at hkey
  exact (h.cached?_resolve_eq_none_iff.1 hnone).2 hkey

/-- Resolving a declaration answers with the record that it leaves behind. -/
theorem WellFormed.exists_cached?_resolve :
    ∃ cached, (engine.resolve tree declaration).cached? declaration = some cached
      ∧ engine.resolved tree declaration = cached.resolved := by
  have hsome : (engine.resolve tree declaration).cached? declaration ≠ none :=
    fun hnone => (h.cached?_resolve_eq_none_iff.1 hnone).2 .refl
  obtain ⟨cached, hcached⟩ := Option.ne_none_iff_exists'.1 hsome
  exact ⟨cached, hcached, record_of_cached? hcached⟩

end Resolve

/-- In every state that an engine can come to, resolving a declaration closes the cache under
extensions from there on: it comes to an end, makes each missing record once, leaves the
others alone, and has nothing to do the next time. -/
theorem resolve_closes_cache (calls : List LibraryIndex.Call) (config : EngineConfig)
    (provider : Option DocumentationProvider) (events : List EngineEvent) (tree : FileTree)
    (declaration : TypeDeclaration) :
    ((ofIndex (.ofCalls calls) config provider).after events).ResolveCloses tree declaration := by
  have h := wellFormed_after calls config provider events
  generalize (ofIndex (.ofCalls calls) config provider).after events = engine at h
  refine ⟨h.resolvesTo_resolve tree declaration, fun key => ?_,
    fun key cached hcached => cached?_foldl_populate_of_cached? hcached, ?_,
    h.exists_cached?_resolve, h.resolve_resolve, ?_⟩
  · rw [Ne, h.cached?_resolve_eq_none_iff, h.cachedExtends_resolve_iff, not_and_or, not_not]
  · refine ⟨(engine.chain tree declaration).filter fun key => engine.cached? key = none,
      (h.nodup_chain tree declaration).filter _, fun key => ?_, h.populations_resolve⟩
    rw [List.mem_filter, h.mem_chain_iff, decide_eq_true_eq, Ne, h.cached?_resolve_eq_none_iff]
    constructor
    · intro hboth
      exact ⟨fun hnone => hnone.2 hboth.1, hboth.2⟩
    · intro hboth
      refine ⟨?_, hboth.2⟩
      by_contra hnot
      exact hboth.1 ⟨hboth.2, hnot⟩
  · rw [resolved, h.resolve_resolve, resolved]

end ClassAtlas.Engine
