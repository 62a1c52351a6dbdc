import ClassAtlas.Proofs.Engine.Coherence

/-!
# States of an engine

An engine shares its index with others, who may register and remove libraries
without telling it, and the files may change at any time. Its cached records can
then be outdated; still, each of them was made for the declaration under which it
is kept. This is what every state has in common that an engine can come to.
-/

namespace ClassAtlas

/-- Something that happens to an engine, with the files as they are at the time. -/
inductive EngineEvent where
  /-- A call on the engine. -/
  | call (tree : FileTree) (call : EngineCall)
  /-- A call on the index that the engine shares. -/
  | indexCall (call : LibraryIndex.Call)

namespace Engine

/-- The engine after an event. -/
def undergo (engine : Engine) : EngineEvent → Engine
  | .call tree call => engine.perform tree call
  | .indexCall call => { engine with index := engine.index.perform call }

/-- The engine after some events. -/
def after (engine : Engine) (events : List EngineEvent) : Engine :=
  events.foldl undergo engine

variable {tree : FileTree} {engine : Engine}

/-- A new engine is well formed. -/
theorem wellFormed_ofIndex {index : LibraryIndex} (h : index.Coherent) (config : EngineConfig)
    (provider : Option DocumentationProvider) : (ofIndex index config provider).WellFormed :=
  ⟨h, fun _ _ hcached => by cases hcached⟩

/-- Steps that keep or refresh the records keep an engine well-formed. -/
theorem WellFormed.of_refreshes {after : Engine} (h : engine.WellFormed)
    (hstep : Refreshes tree engine after) : after.WellFormed := by
  refine wellFormed_of_record_madeFor tree hstep.coherent fun declaration => ?_
  rcases hstep.record_cases declaration with hkept | hfresh
  · rw [hkept]
    exact h.record_madeFor tree declaration
  · rw [hfresh]
    exact freshRecord_madeFor tree engine declaration

/-- Removing a library keeps an engine well formed. -/
theorem WellFormed.removeLibrary (h : engine.WellFormed) (location : Location) :
    (engine.removeLibrary location).WellFormed := by
  refine ⟨h.coherent.remove location, fun declaration cached hcached => ?_⟩
  exact h.cached_madeFor declaration cached (cached?_of_cached?_invalidate hcached)

/-- Every call keeps an engine well formed. -/
theorem WellFormed.perform (h : engine.WellFormed) (tree : FileTree) (call : EngineCall) :
    (engine.perform tree call).WellFormed := by
  cases call with
  | query query =>
    have hstep : Refreshes tree engine (engine.answer tree query) :=
      refreshes_answer h.coherent query
    exact h.of_refreshes hstep
  | remove location => exact h.removeLibrary location
  | register location sourceLocation =>
    rw [Engine.perform, registerLibrary]
    cases hregister : engine.index.register tree location sourceLocation with
    | error error => exact h
    | ok registered =>
      obtain ⟨library, index⟩ := registered
      exact ⟨h.coherent.register hregister, fun _ _ hcached => by cases hcached⟩

/-- Every event keeps an engine well formed. -/
theorem WellFormed.undergo (h : engine.WellFormed) (event : EngineEvent) :
    (engine.undergo event).WellFormed := by
  cases event with
  | call tree call => exact h.perform tree call
  | indexCall call => exact ⟨h.coherent.perform call, h.cached_madeFor⟩

/-- Whatever happens, an engine stays well-formed. -/
theorem WellFormed.after (h : engine.WellFormed) (events : List EngineEvent) :
    (engine.after events).WellFormed := by
  unfold Engine.after
  induction events generalizing engine with
  | nil => exact h
  | cons event events ih => exact ih (h.undergo event)

/-- Every state that an engine can come to is well-formed. -/
theorem wellFormed_after (calls : List LibraryIndex.Call) (config : EngineConfig)
    (provider : Option DocumentationProvider) (events : List EngineEvent) :
    ((ofIndex (.ofCalls calls) config provider).after events).WellFormed :=
  (wellFormed_ofIndex (LibraryIndex.coherent_ofCalls calls) config provider).after events

end Engine

end ClassAtlas
