import ClassAtlas.Proofs.Types.AliasDirections

/-!
# Layers of aliases

Three layers decide what an alias stands for. Configured pairs come first, and the last
pair of an alias counts; then come the built-in pairs; then the pairs registered since the
last reset, of which the first pair of an alias counts. Primitive names stand for nothing.
The registry keeps no layers. It has one table that every call changes in place, so the
layers are an invariant of runs.
-/

namespace ClassAtlas.AliasRegistry

variable {configured : List (String × String)} {shortName qualifiedName : String}

/-! ## The layers -/

/-- The pairs registered since the last reset, after one more call. -/
def noteCall (registered : List (String × String)) : Call → List (String × String)
  | .register shortName qualifiedName => registered ++ [(shortName, qualifiedName)]
  | .reset => []

/-- The pairs that some calls have passed on since the last reset, added or not, in order. -/
def registeredPairs (calls : List Call) : List (String × String) :=
  calls.foldl noteCall []

/-- What an alias stands for by its layers. -/
def layered? (configured registered : List (String × String)) (shortName : String) :
    Option String :=
  if isPrimitiveName shortName then none
  else (lastTypeIn? configured shortName).or
    ((builtinAliases.lookup shortName).or (registered.lookup shortName))

/-- Where no alias has two pairs, the last pair of an alias is its first one. -/
theorem lookup_reverse_of_distinct {pairs : List (String × String)}
    (h : pairs.Pairwise fun first second => first.1 ≠ second.1) (shortName : String) :
    pairs.reverse.lookup shortName = pairs.lookup shortName := by
  induction pairs with
  | nil => rfl
  | cons pair pairs ih =>
    obtain ⟨name, type⟩ := pair
    obtain ⟨hname, hpairs⟩ := List.pairwise_cons.1 h
    rw [List.reverse_cons, List.lookup_append, ih hpairs, List.lookup_cons]
    by_cases hsame : shortName = name
    · have hlater : pairs.lookup shortName = none := by
        rw [List.lookup_eq_none_iff]
        intro other hother
        exact bne_iff_ne.2 (hsame ▸ hname other hother)
      simp [hsame ▸ hlater, hsame]
    · have hother : (shortName == name) = false := beq_false_of_ne hsame
      simp [List.lookup_cons, hother]

/-- No built-in alias is given twice, so that its last type is its first one. -/
theorem lastTypeIn?_builtinAliases (shortName : String) :
    lastTypeIn? builtinAliases shortName = builtinAliases.lookup shortName :=
  lookup_reverse_of_distinct (by decide) shortName

/-! ## The table has the layers -/

/-- A primitive name is given nothing to stand for. -/
theorem get?_qualified_assignAll_of_primitive (registry : AliasRegistry)
    (pairs : List (String × String)) (h : isPrimitiveName shortName = true) :
    (registry.assignAll pairs).qualified.get? shortName = registry.qualified.get? shortName := by
  induction pairs generalizing registry with
  | nil => rfl
  | cons pair pairs ih =>
    have hkept : (registry.assign pair.1 pair.2).qualified.get? shortName
        = registry.qualified.get? shortName := by
      rw [get?_qualified_assign, if_neg]
      rintro ⟨rfl, hplain⟩
      rw [h] at hplain
      cases hplain
    exact (ih _).trans hkept

/-- In a new registry an alias means what the layers without registrations say. -/
theorem get?_qualified_ofConfigured_eq_layered? (configured : List (String × String))
    (shortName : String) :
    (ofConfigured configured).qualified.get? shortName = layered? configured [] shortName := by
  unfold layered?
  cases hprimitive : isPrimitiveName shortName with
  | true => exact get?_qualified_assignAll_of_primitive _ _ hprimitive
  | false =>
    have hlast : lastTypeIn? (builtinAliases ++ configured) shortName
        = (lastTypeIn? configured shortName).or (lastTypeIn? builtinAliases shortName) := by
      unfold lastTypeIn?
      rw [List.reverse_append, List.lookup_append]
    rw [get?_qualified_ofConfigured configured hprimitive, hlast, lastTypeIn?_builtinAliases,
      List.lookup_nil, Option.or_none]
    rfl

/-- One more registered pair counts for an alias that stands for nothing yet. -/
theorem layered?_append_singleton (configured registered : List (String × String))
    (shortName qualifiedName other : String) :
    layered? configured (registered ++ [(shortName, qualifiedName)]) other
      = if other = shortName ∧ layered? configured registered shortName = none
          ∧ isPrimitiveName shortName = false
        then some qualifiedName else layered? configured registered other := by
  by_cases hsame : other = shortName
  · subst hsame
    unfold layered?
    cases isPrimitiveName other with
    | true => simp
    | false =>
      cases lastTypeIn? configured other <;> cases builtinAliases.lookup other
        <;> cases hfound : registered.lookup other <;> simp [List.lookup_append, hfound]
  · have hother : (other == shortName) = false := beq_false_of_ne hsame
    simp [layered?, hsame, hother, List.lookup_append, List.lookup_cons]

/-- The table of a registry has the layers of its configured pairs and of the pairs registered
since its last reset. -/
structure Layered (configured registered : List (String × String)) (registry : AliasRegistry) :
    Prop where
  /-- The configured pairs are kept for a reset. -/
  configured_eq : registry.configured = configured
  /-- What an alias stands for is decided by its layers. -/
  get?_eq : ∀ shortName,
    registry.qualified.get? shortName = layered? configured registered shortName

/-- A new registry has its layers, and no registrations. -/
theorem layered_ofConfigured (configured : List (String × String)) :
    (ofConfigured configured).Layered configured [] :=
  ⟨configured_ofConfigured configured, get?_qualified_ofConfigured_eq_layered? configured⟩

/-- Every call keeps the layers, with what it registers noted. -/
theorem Layered.perform {registered : List (String × String)} {registry : AliasRegistry}
    (h : registry.Layered configured registered) (call : Call) :
    (registry.perform call).Layered configured (noteCall registered call) := by
  cases call with
  | register shortName qualifiedName =>
    refine ⟨(configured_register registry shortName qualifiedName).trans h.configured_eq, ?_⟩
    intro other
    rw [AliasRegistry.perform, get?_register, h.get?_eq, h.get?_eq, noteCall,
      layered?_append_singleton]
  | reset =>
    rw [AliasRegistry.perform, reset, h.configured_eq]
    exact layered_ofConfigured configured

/-- After any calls the layers are those of what has been registered since the last reset. -/
theorem layered_ofCalls (configured : List (String × String)) (calls : List Call) :
    (ofCalls configured calls).Layered configured (registeredPairs calls) := by
  induction calls using List.reverseRecOn with
  | nil => exact layered_ofConfigured configured
  | append_singleton calls last ih =>
    rw [ofCalls, registeredPairs, List.foldl_append, List.foldl_append]
    exact ih.perform last

/-! ## What a registration does -/

/-- What registering a pair may do to a registry: `added` tells whether an alias was added. -/
structure Registration (shortName qualifiedName : String) (before after : AliasRegistry)
    (added : Bool) : Prop where
  /-- An alias is added when the name is neither primitive nor taken. -/
  added_iff_free : added = true
    ↔ isPrimitiveName shortName = false ∧ before.declaration? shortName = none
  /-- The answer is yes when the alias stands for something new. -/
  added_iff : added = true ↔ before.declaration? shortName = none
    ∧ after.declaration? shortName = some (.ofName qualifiedName)
  /-- What an alias stands for stays, and no other alias is added. -/
  kept : ∀ other, other ≠ shortName ∨ before.declaration? other ≠ none →
    after.declaration? other = before.declaration? other
  /-- If the answer is no, nothing has changed, in neither direction. -/
  refused : added = false → after = before

theorem declaration?_eq_none_iff {registry : AliasRegistry} :
    registry.declaration? shortName = none ↔ registry.qualified.get? shortName = none := by
  unfold declaration?
  exact Option.map_eq_none_iff

/-- Registering an alias has the outcome that the layers say. -/
theorem registration_register (registry : AliasRegistry) (shortName qualifiedName : String) :
    Registration shortName qualifiedName registry (registry.register shortName qualifiedName).2
      (registry.register shortName qualifiedName).1 := by
  have hadded : (registry.register shortName qualifiedName).1 = true
      ↔ isPrimitiveName shortName = false ∧ registry.declaration? shortName = none := by
    rw [declaration?_eq_none_iff]
    unfold register Table.contains
    cases isPrimitiveName shortName <;> cases registry.qualified.get? shortName <;> simp
  refine ⟨hadded, ?_, ?_, ?_⟩
  · rw [hadded, declaration?_eq_none_iff, declaration?_eq_some_iff, get?_register]
    constructor
    · rintro ⟨hplain, hfree⟩
      exact ⟨hfree, if_pos ⟨rfl, hfree, hplain⟩⟩
    · rintro ⟨hfree, hnew⟩
      split at hnew
      · next hall => exact ⟨hall.2.2, hfree⟩
      · rw [hfree] at hnew
        cases hnew
  · intro other hother
    have hsame : (registry.register shortName qualifiedName).2.qualified.get? other
        = registry.qualified.get? other := by
      rw [get?_register, if_neg]
      rintro ⟨rfl, hfree, _⟩
      exact hother.elim (· rfl) (· (declaration?_eq_none_iff.2 hfree))
    rw [declaration?, declaration?, hsame]
  · intro hrefused
    unfold register at hrefused ⊢
    split at hrefused
    · next hcond => rw [if_pos hcond]
    · cases hrefused

/-- Whatever is registered and however often the registry is reset, an alias stands for what its
layers say; registering a pair answers whether it adds an alias, and changes no other; and a reset
leads back to the registry of the configured pairs, in both directions. -/
theorem aliases_have_layers (configured : List (String × String)) (calls : List Call) :
    (∀ shortName, (ofCalls configured calls).declaration? shortName
      = (layered? configured (registeredPairs calls) shortName).map .ofName)
    ∧ (∀ shortName qualifiedName, Registration shortName qualifiedName (ofCalls configured calls)
      ((ofCalls configured calls).register shortName qualifiedName).2
      ((ofCalls configured calls).register shortName qualifiedName).1)
    ∧ (ofCalls configured calls).reset = ofConfigured configured := by
  have hlayered := layered_ofCalls configured calls
  refine ⟨fun shortName => ?_, registration_register _, ?_⟩
  · rw [declaration?, hlayered.get?_eq]
  · rw [reset, hlayered.configured_eq]

end ClassAtlas.AliasRegistry
