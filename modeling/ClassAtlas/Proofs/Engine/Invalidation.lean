import ClassAtlas.Proofs.Engine.Removal
import ClassAtlas.Proofs.FirstWays
import Mathlib.Order.Bounds.Defs

/-!
# What an invalidation drops

An invalidation is given some names and drops the records of these names, the
records that extend one of them, the records that extend one of those, and so on.
Names are all that counts: the record of a type and the record of its static
members go together. The names that go are the least set that holds the given
ones and every name with a record that extends a name in the set, so nothing
outdated stays and nothing unrelated goes, on any cache, also where records
extend each other in a circle.
-/

namespace ClassAtlas.Engine

/-! ## The names that have to go -/

/-- A set of names that holds the given ones and, with the name of a type, the name of every
cached record that extends it. -/
structure ClosedUnderDependents (cache : Table TypeDeclaration CachedType) (names : List String)
    (gone : Set String) : Prop where
  /-- The given names are in the set. -/
  given_mem : ∀ name ∈ names, name ∈ gone
  /-- What extends a name in the set is in the set. -/
  dependent_mem : ∀ entry ∈ cache.entries, ∀ extension ∈ entry.2.resolved.extensions,
    extension.qualifiedName ∈ gone → entry.1.qualifiedName ∈ gone

/-- Whether a cached record of one name extends a type of another name. -/
def NameExtends (cache : Table TypeDeclaration CachedType) (lower upper : String) : Prop :=
  ∃ entry ∈ cache.entries, entry.1.qualifiedName = lower
    ∧ ∃ extension ∈ entry.2.resolved.extensions, extension.qualifiedName = upper

variable {cache : Table TypeDeclaration CachedType} {names : List String}

/-- The dependents of a name are the names that extend it in the cache. -/
theorem mem_dependents_iff {lower upper : String} :
    lower ∈ dependents cache upper ↔ NameExtends cache lower upper := by
  simp only [dependents, NameExtends, List.mem_map, List.mem_filter, List.any_eq_true,
    decide_eq_true_eq, and_assoc]
  refine exists_congr fun entry => and_congr_right fun _ => ?_
  exact and_comm

/-- The names that go are those from which extensions lead to a given name. -/
theorem mem_affected_iff {name : String} :
    name ∈ affected cache names
      ↔ ∃ given ∈ names, Relation.ReflTransGen (NameExtends cache) name given := by
  have hkeys := (completes_affected cache names).mem_keys_iff_exists (fun _ => List.map_id _) name
  rw [List.map_id] at hkeys
  rw [hkeys]
  refine exists_congr fun given => and_congr_right fun _ => ?_
  rw [← Relation.reflTransGen_swap]
  simp only [id_eq, mem_dependents_iff]

/-- The names that go are the least set that has to go. -/
theorem isLeast_affected (cache : Table TypeDeclaration CachedType) (names : List String) :
    IsLeast { gone | ClosedUnderDependents cache names gone }
      { name | name ∈ affected cache names } := by
  constructor
  · refine ⟨fun name hname => mem_affected hname, fun entry hentry extension hextension hgone => ?_⟩
    obtain ⟨given, hgiven, hleads⟩ := mem_affected_iff.1 hgone
    have hstep : NameExtends cache entry.1.qualifiedName extension.qualifiedName :=
      ⟨entry, hentry, rfl, extension, hextension, rfl⟩
    exact mem_affected_iff.2 ⟨given, hgiven, .head hstep hleads⟩
  -- the induction is on the way from the name to the given one
  · intro gone hclosed name hname
    obtain ⟨given, hgiven, hleads⟩ := mem_affected_iff.1 hname
    induction hleads using Relation.ReflTransGen.head_induction_on with
    | refl => exact hclosed.given_mem given hgiven
    | head hstep _ ih =>
      obtain ⟨entry, hentry, rfl, extension, hextension, rfl⟩ := hstep
      have hupper := ih (mem_affected_iff.2 ⟨given, hgiven, ‹_›⟩)
      exact hclosed.dependent_mem entry hentry extension hextension hupper

/-! ## The records that stay -/

/-- An invalidation drops the records of some names and leaves the rest of the engine alone. -/
structure InvalidationExact (engine : Engine) (names : List String) (gone : Set String) :
    Prop where
  /-- The search for dependents comes to an end. -/
  ends : Walk.Completes id (dependents engine.cache) names [] (affected engine.cache names)
  /-- The set is the least one that has to go. -/
  least : IsLeast { gone | ClosedUnderDependents engine.cache names gone } gone
  /-- The records outside the set are the same ones as before, in the same order. -/
  kept : ∃ keep : TypeDeclaration × CachedType → Bool,
    (∀ entry, keep entry = true ↔ entry.1.qualifiedName ∉ gone)
      ∧ engine.invalidate names = { engine with cache := ⟨engine.cache.entries.filter keep⟩ }
  /-- A declaration outside the set has the record from before, one inside it has none. -/
  cached_iff : ∀ declaration cached,
    (engine.invalidate names).cached? declaration = some cached
      ↔ engine.cached? declaration = some cached ∧ declaration.qualifiedName ∉ gone
  /-- From a record that stays, the extensions from before lead to no given name. -/
  apart : ∀ entry ∈ (engine.invalidate names).cache.entries, ∀ name,
    Relation.ReflTransGen (NameExtends engine.cache) entry.1.qualifiedName name → name ∉ names

/-- Invalidating keeps exactly the records of types that are not affected, as they are. -/
theorem cached?_invalidate_eq_some_iff {engine : Engine} {declaration : TypeDeclaration}
    {cached : CachedType} :
    (engine.invalidate names).cached? declaration = some cached
      ↔ engine.cached? declaration = some cached
        ∧ declaration.qualifiedName ∉ affected engine.cache names := by
  unfold invalidate cached?
  rw [Table.get?_filterKeys]
  by_cases hgone : declaration.qualifiedName ∈ affected engine.cache names
  · simp [hgone]
  · simp [hgone]

/-- An invalidation drops exactly the records whose names are in the least set that holds the
given names and what depends on them. -/
theorem invalidate_drops_dependents (engine : Engine) (names : List String) :
    ∃ gone, engine.InvalidationExact names gone := by
  refine ⟨{ name | name ∈ affected engine.cache names }, completes_affected engine.cache names,
    isLeast_affected engine.cache names, ?_, ?_, ?_⟩
  · refine ⟨fun entry => !(affected engine.cache names).contains entry.1.qualifiedName, ?_, rfl⟩
    intro entry
    simp
  · intro declaration cached
    exact cached?_invalidate_eq_some_iff
  · intro entry hentry name hleads hgiven
    have hkept := (List.mem_filter.1 hentry).2
    have hgone := mem_affected_iff.2 ⟨name, hgiven, hleads⟩
    simp [hgone] at hkept

end ClassAtlas.Engine
