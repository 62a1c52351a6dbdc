import ClassAtlas.Proofs.Engine.Records
import ClassAtlas.Proofs.Engine.Runs
import ClassAtlas.Proofs.Library.Requests

/-!
# Cached records and fresh records

An engine keeps the records it has made. As long as no library is registered or
removed, keeping them makes no difference: every record in the cache is the one
that would be made from the index now. Queries fill and empty the cache, discover
aliases and have classes decoded, and none of this shows in their answers.
-/

namespace ClassAtlas.Engine

/-! ## Engines that make the same records -/

/-- Two engines with the same settings, over indices that are alike. -/
structure Alike (tree : FileTree) (first second : Engine) : Prop where
  /-- The settings are the same. -/
  config_eq : first.config = second.config
  /-- The same provider documents members. -/
  provider_eq : first.provider = second.provider
  /-- The same classes are served. -/
  index_alike : first.index.Alike tree second.index

namespace Alike

variable {tree : FileTree} {first second third : Engine}

theorem refl (engine : Engine) : Alike tree engine engine :=
  ⟨rfl, rfl, LibraryIndex.Alike.refl engine.index⟩

theorem symm (h : Alike tree first second) : Alike tree second first :=
  ⟨h.config_eq.symm, h.provider_eq.symm, h.index_alike.symm⟩

theorem trans (h : Alike tree first second) (h' : Alike tree second third) :
    Alike tree first third :=
  ⟨h.config_eq.trans h'.config_eq, h.provider_eq.trans h'.provider_eq,
    h.index_alike.trans h'.index_alike⟩

/-- Engines that are alike find the same class for a declaration. -/
theorem description?_eq (h : Alike tree first second) (declaration : TypeDeclaration) :
    first.description? tree declaration = second.description? tree declaration := by
  unfold description?
  rw [h.config_eq]
  exact h.index_alike.lookupIn?_eq _ _ _

end Alike

/-- The source text of a class depends on the place of the source files only. -/
theorem sourceText_eq (tree : FileTree) (engine : Engine) (description : ClassDescription) :
    engine.sourceText tree description
      = ((engine.index.owner? description.name).map (·.sourceLocation)).bind fun found =>
        found.bind fun location =>
          match location.readSource tree description.name with
          | .ok text => text
          | .error _ => none := by
  unfold sourceText
  cases engine.index.owner? description.name with
  | none => rfl
  | some library => rfl

/-- Engines that are alike find the same source text for a class. -/
theorem Alike.sourceText_eq {tree : FileTree} {first second : Engine}
    (h : Alike tree first second) (description : ClassDescription) :
    first.sourceText tree description = second.sourceText tree description := by
  rw [Engine.sourceText_eq, Engine.sourceText_eq,
    h.index_alike.map_owner? h.index_alike.sources_eq]

/-- A record is made from the settings, the class and its source text. -/
theorem recordOf_congr {tree : FileTree} {first second : Engine}
    (hconfig : first.config = second.config) (hprovider : first.provider = second.provider)
    {description : ClassDescription}
    (hsource : first.provider.isSome →
      first.sourceText tree description = second.sourceText tree description)
    (declaration : TypeDeclaration) :
    first.recordOf tree declaration description
      = second.recordOf tree declaration description := by
  unfold recordOf
  rw [hconfig, ← hprovider]
  by_cases hsome : first.provider.isSome = true
  · rw [if_pos hsome, if_pos hsome, hsource hsome]
  · rw [if_neg hsome, if_neg hsome]

/-- Engines that are alike make the same records. -/
theorem Alike.freshRecord_eq {tree : FileTree} {first second : Engine}
    (h : Alike tree first second) (declaration : TypeDeclaration) :
    first.freshRecord tree declaration = second.freshRecord tree declaration := by
  unfold freshRecord
  rw [h.description?_eq]
  cases second.description? tree declaration with
  | none => rfl
  | some description =>
    exact recordOf_congr h.config_eq h.provider_eq (fun _ => h.sourceText_eq description) declaration

/-! ## What a query can do to the records -/

/-- The records after a step are those from before or fresh ones, and fresh records stay
the same. -/
structure Refreshes (tree : FileTree) (before after : Engine) : Prop where
  /-- Fresh records stay the same. -/
  alike : Alike tree before after
  /-- The index stays coherent. -/
  coherent : after.index.Coherent
  /-- Every record is kept or fresh. -/
  record_cases : ∀ declaration,
    after.record tree declaration = before.record tree declaration
      ∨ after.record tree declaration = before.freshRecord tree declaration

namespace Refreshes

variable {tree : FileTree} {first second third : Engine}

theorem refl {engine : Engine} (h : engine.index.Coherent) : Refreshes tree engine engine :=
  ⟨Alike.refl engine, h, fun _ => .inl rfl⟩

theorem trans (h : Refreshes tree first second) (h' : Refreshes tree second third) :
    Refreshes tree first third := by
  refine ⟨h.alike.trans h'.alike, h'.coherent, fun declaration => ?_⟩
  rcases h'.record_cases declaration with hkept | hfresh
  · rw [hkept]
    exact h.record_cases declaration
  · rw [hfresh]
    exact .inr (h.alike.freshRecord_eq declaration).symm

end Refreshes

section Steps

variable {tree : FileTree} {engine : Engine}

/-- A type with a record is not populated again. -/
theorem populate_of_cached? {declaration : TypeDeclaration} {cached : CachedType}
    (h : engine.cached? declaration = some cached) :
    engine.populate tree declaration = engine := by
  rw [populate, h]

/-- Populating a type without a record gives it a fresh one, and leaves all others alone. -/
theorem cached?_populate {declaration : TypeDeclaration}
    (h : engine.cached? declaration = none) (other : TypeDeclaration) :
    (engine.populate tree declaration).cached? other
      = if other = declaration
        then some ⟨engine.populations, engine.freshRecord tree declaration⟩
        else engine.cached? other := by
  rw [populate, h]
  exact Table.get?_insert _ _ _ _

/-- An engine stays alike when a type is populated. -/
theorem alike_populate (h : engine.index.Coherent) (declaration : TypeDeclaration) :
    Alike tree engine (engine.populate tree declaration) := by
  cases hcached : engine.cached? declaration with
  | some cached =>
    rw [populate_of_cached? hcached]
    exact Alike.refl engine
  | none =>
    rw [populate, hcached]
    exact ⟨rfl, rfl, h.alike_requestIn tree _ _ _⟩

theorem coherent_populate (h : engine.index.Coherent) (declaration : TypeDeclaration) :
    (engine.populate tree declaration).index.Coherent := by
  cases hcached : engine.cached? declaration with
  | some cached =>
    rw [populate_of_cached? hcached]
    exact h
  | none =>
    rw [populate, hcached]
    exact h.requestIn tree _ _ _

/-- Making a record changes no record. -/
theorem record_populate (h : engine.index.Coherent) (declaration other : TypeDeclaration) :
    (engine.populate tree declaration).record tree other = engine.record tree other := by
  cases hcached : engine.cached? declaration with
  | some cached =>
    rw [populate_of_cached? hcached]
  | none =>
    by_cases heq : other = declaration
    · subst heq
      rw [record_of_cached?_eq_none hcached, record, cached?_populate hcached, if_pos rfl]
    · unfold record
      rw [cached?_populate hcached, if_neg heq, ← (alike_populate h declaration).freshRecord_eq]

/-- Populating a type leaves every record as it was, or fresh. -/
theorem refreshes_populate (h : engine.index.Coherent) (declaration : TypeDeclaration) :
    Refreshes tree engine (engine.populate tree declaration) :=
  ⟨alike_populate h declaration, coherent_populate h declaration,
    fun other => .inl (record_populate h declaration other)⟩

/-- Populating several types leaves every record as it was, or fresh; in fact every type has the
record that it had before. -/
theorem refreshes_foldl_populate (h : engine.index.Coherent)
    (declarations : List TypeDeclaration) :
    Refreshes tree engine (declarations.foldl (populate tree) engine)
      ∧ ∀ other, (declarations.foldl (populate tree) engine).record tree other
        = engine.record tree other := by
  induction declarations generalizing engine with
  | nil => exact ⟨Refreshes.refl h, fun _ => rfl⟩
  | cons declaration declarations ih =>
    have hfirst : Refreshes tree engine (engine.populate tree declaration) :=
      refreshes_populate h declaration
    obtain ⟨hothers, hrecord⟩ := ih hfirst.coherent
    refine ⟨hfirst.trans hothers, fun other => ?_⟩
    rw [List.foldl_cons, hrecord, record_populate h]

/-- Resolving a declaration leaves every record as it was, or fresh. -/
theorem refreshes_resolve (h : engine.index.Coherent) (declaration : TypeDeclaration) :
    Refreshes tree engine (engine.resolve tree declaration) :=
  (refreshes_foldl_populate h _).1

/-- Resolving changes no record. -/
theorem record_resolve (h : engine.index.Coherent) (declaration other : TypeDeclaration) :
    (engine.resolve tree declaration).record tree other = engine.record tree other :=
  (refreshes_foldl_populate h _).2 other

/-- Judging conversions has classes decoded and does nothing else. -/
theorem refreshes_judge {α : Type} (h : engine.index.Coherent) (inquiry : Inquiry α) :
    Refreshes tree engine (engine.judge tree inquiry).2 := by
  obtain ⟨hcoherent, halike⟩ :=
    h.foldl_request tree (inquiry.consulted (engine.index.hierarchy tree))
  have hengines : Alike tree engine (engine.judge tree inquiry).2 := ⟨rfl, rfl, halike⟩
  refine ⟨hengines, hcoherent, fun declaration => .inl ?_⟩
  unfold record
  rw [← hengines.freshRecord_eq]
  rfl

/-- Looking for the best overload leaves every record as it was, or fresh. -/
theorem refreshes_bestOverload {γ : Type} (h : engine.index.Coherent) (view : γ → Candidate)
    (candidates : List γ) (call : CallSite) :
    Refreshes tree engine (engine.bestOverload tree view candidates call).2 :=
  refreshes_judge h _

/-- A call is judged by an engine that has resolved the type. -/
theorem resolveCallSite_eq (declaration : TypeDeclaration) (call : CallSite) :
    (engine.resolveCallSite tree declaration call).2
      = if !((engine.resolve tree declaration).record tree declaration).isFound
        then engine.resolve tree declaration
        else ((engine.resolve tree declaration).bestOverload tree Member.candidate
          (((engine.resolve tree declaration).completions tree declaration).filter
            Member.isCallable) call).2 := by
  unfold resolveCallSite
  generalize engine.resolve tree declaration = resolved
  dsimp only
  by_cases hfound : (!(resolved.record tree declaration).isFound) = true
  · rw [if_pos hfound, if_pos hfound]
  · rw [if_neg hfound, if_neg hfound]

/-- Resolving a call leaves every record as it was, or fresh. -/
theorem refreshes_resolveCallSite (h : engine.index.Coherent) (declaration : TypeDeclaration)
    (call : CallSite) :
    Refreshes tree engine (engine.resolveCallSite tree declaration call).2 := by
  have hresolve : Refreshes tree engine (engine.resolve tree declaration) :=
    refreshes_resolve h declaration
  rw [resolveCallSite_eq]
  split
  · exact hresolve
  · exact hresolve.trans (refreshes_bestOverload hresolve.coherent _ _ _)

/-- An engine that has lost some of its records makes fresh ones in their place. -/
theorem refreshes_of_cached? {after : Engine} (h : engine.index.Coherent)
    (hconfig : engine.config = after.config) (hprovider : engine.provider = after.provider)
    (hindex : engine.index = after.index)
    (hcached : ∀ declaration cached, after.cached? declaration = some cached →
      engine.cached? declaration = some cached) :
    Refreshes tree engine after := by
  have halike : Alike tree engine after := by
    refine ⟨hconfig, hprovider, ?_⟩
    rw [← hindex]
    exact LibraryIndex.Alike.refl engine.index
  refine ⟨halike, by rw [← hindex]; exact h, fun declaration => ?_⟩
  cases hafter : after.cached? declaration with
  | none =>
    right
    rw [record_of_cached?_eq_none hafter, halike.freshRecord_eq]
  | some cached =>
    left
    rw [record, hafter, record, hcached declaration cached hafter]

/-- Records that stay after an invalidation were there before it. -/
theorem cached?_of_cached?_invalidate {names : List String} {declaration : TypeDeclaration}
    {cached : CachedType} (h : (engine.invalidate names).cached? declaration = some cached) :
    engine.cached? declaration = some cached := by
  unfold cached? invalidate at h
  rw [Table.get?_filterKeys] at h
  split at h
  · exact h
  · cases h

/-- Every query leaves every record as it was, or fresh. -/
theorem refreshes_answer (h : engine.index.Coherent) (query : EngineQuery) :
    Refreshes tree engine (engine.answer tree query) := by
  cases query with
  | resolve declaration => exact refreshes_resolve h declaration
  | resolveName name staticsOnly => exact refreshes_resolve h _
  | completions declaration => exact refreshes_resolve h declaration
  | resolveCallSite declaration call => exact refreshes_resolveCallSite h declaration call
  | resolveCall typeName call =>
    rw [answer, resolveCall]
    cases CallSite.parse call with
    | error error => exact Refreshes.refl h
    | ok site => exact refreshes_resolveCallSite h _ site
  | resolveFunctionCall call => exact refreshes_bestOverload h _ _ call
  | mergeKeywords keywords => exact refreshes_of_cached? h rfl rfl rfl fun _ _ hcached => hcached
  | invalidate names =>
    exact refreshes_of_cached? h rfl rfl rfl fun _ _ => cached?_of_cached?_invalidate
  | clearCache => exact refreshes_of_cached? h rfl rfl rfl fun _ _ hcached => by cases hcached
  | resetAliases => exact refreshes_of_cached? h rfl rfl rfl fun _ _ hcached => hcached

/-- Queries in a row leave every record as it was, or fresh. -/
theorem refreshes_answerAll (h : engine.index.Coherent) (queries : List EngineQuery) :
    Refreshes tree engine (engine.answerAll tree queries) := by
  unfold answerAll
  induction queries generalizing engine with
  | nil => exact Refreshes.refl h
  | cons query queries ih =>
    have hfirst : Refreshes tree engine (engine.answer tree query) := refreshes_answer h query
    exact hfirst.trans (ih hfirst.coherent)

end Steps

/-! ## Engines without outdated records -/

/-- Every record is the one that would be made from the index now. -/
structure UpToDate (tree : FileTree) (engine : Engine) : Prop where
  /-- The index is coherent. -/
  coherent : engine.index.Coherent
  /-- Cached records are as good as fresh ones. -/
  record_fresh : ∀ declaration,
    engine.record tree declaration = engine.freshRecord tree declaration

variable {tree : FileTree}

/-- A new engine is up to date: it has no records. -/
theorem upToDate_ofIndex {index : LibraryIndex} (h : index.Coherent) (config : EngineConfig)
    (provider : Option DocumentationProvider) : (ofIndex index config provider).UpToDate tree :=
  ⟨h, fun _ => rfl⟩

/-- Steps that keep or refresh the records keep them up to date. -/
theorem UpToDate.of_refreshes {before after : Engine} (h : before.UpToDate tree)
    (hstep : Refreshes tree before after) : after.UpToDate tree := by
  refine ⟨hstep.coherent, fun declaration => ?_⟩
  rw [← hstep.alike.freshRecord_eq]
  rcases hstep.record_cases declaration with hkept | hfresh
  · rw [hkept, h.record_fresh]
  · exact hfresh

/-! ## Completions -/

/-- Two engines that are alike and up to date have the same records. -/
theorem UpToDate.record_eq {first second : Engine} (hfirst : first.UpToDate tree)
    (hsecond : second.UpToDate tree) (halike : Alike tree first second) :
    first.record tree = second.record tree := by
  funext declaration
  rw [hfirst.record_fresh, hsecond.record_fresh, halike.freshRecord_eq]

/-- Records that are up to date were made for their declarations. -/
theorem UpToDate.wellFormed {engine : Engine} (h : engine.UpToDate tree) : engine.WellFormed := by
  refine wellFormed_of_record_madeFor tree h.coherent fun declaration => ?_
  rw [h.record_fresh]
  exact freshRecord_madeFor tree engine declaration

/-- Engines that are alike and up to date list the same completions. -/
theorem UpToDate.completions_eq {first second : Engine} (hfirst : first.UpToDate tree)
    (hsecond : second.UpToDate tree) (halike : Alike tree first second)
    (declaration : TypeDeclaration) :
    first.completions tree declaration = second.completions tree declaration :=
  hfirst.wellFormed.completions_congr hsecond.wellFormed (hfirst.record_eq hsecond halike)

/-- What an engine over an index answers does not depend on the queries before: after any
two histories, a declaration has the same completions and resolves to the same record. -/
theorem answers_independent_of_history (tree : FileTree) (calls : List LibraryIndex.Call)
    (config : EngineConfig) (provider : Option DocumentationProvider)
    (first second : List EngineQuery) (declaration : TypeDeclaration) :
    ((ofIndex (.ofCalls calls) config provider).answerAll tree first).completed tree declaration
        = ((ofIndex (.ofCalls calls) config provider).answerAll tree second).completed tree
          declaration
      ∧ ((ofIndex (.ofCalls calls) config provider).answerAll tree first).resolved tree declaration
        = ((ofIndex (.ofCalls calls) config provider).answerAll tree second).resolved tree
          declaration := by
  have hstart : (ofIndex (.ofCalls calls) config provider).UpToDate tree :=
    upToDate_ofIndex (LibraryIndex.coherent_ofCalls calls) config provider
  generalize ofIndex (.ofCalls calls) config provider = start at hstart
  have hrun : ∀ history : List EngineQuery,
      Refreshes tree start ((start.answerAll tree history).resolve tree declaration) := by
    intro history
    have hhistory : Refreshes tree start (start.answerAll tree history) :=
      refreshes_answerAll hstart.coherent history
    exact hhistory.trans (refreshes_resolve hhistory.coherent declaration)
  have hfirst := hstart.of_refreshes (hrun first)
  have hsecond := hstart.of_refreshes (hrun second)
  have halike := (hrun first).alike.symm.trans (hrun second).alike
  exact ⟨hfirst.completions_eq hsecond halike declaration,
    congrFun (hfirst.record_eq hsecond halike) declaration⟩

end ClassAtlas.Engine
