import ClassAtlas.Types.AliasRegistry
import Mathlib.Data.List.Induction

/-!
# Aliases there and back

The registry leads from an alias to a qualified name, and from a qualified name back to
its first alias. The way there is overwritten when an alias is given again, and the way
back is never touched after it has been written. Aliases that are registered later
overwrite nothing, so the two ways part only among the starting aliases: where the first
alias of a type is given to another type by a later pair, the way back still leads to
it. Every type that an alias stands for has a way back, whatever happens.
-/

namespace ClassAtlas.AliasRegistry

variable {registry : AliasRegistry} {configured pairs : List (String × String)}
  {shortName qualifiedName : String}

/-! ## What calls do to the two tables -/

theorem configured_assign (registry : AliasRegistry) (shortName qualifiedName : String) :
    (registry.assign shortName qualifiedName).configured = registry.configured := by
  unfold assign
  split <;> rfl

theorem configured_ofConfigured (configured : List (String × String)) :
    (ofConfigured configured).configured = configured := by
  have hall : ∀ (pairs : List (String × String)) (registry : AliasRegistry),
      (registry.assignAll pairs).configured = registry.configured := by
    intro pairs
    induction pairs with
    | nil => exact fun _ => rfl
    | cons pair pairs ih =>
      intro registry
      exact (ih _).trans (configured_assign registry pair.1 pair.2)
  exact hall _ _

/-- A new alias is added only where the name is neither taken nor primitive. -/
theorem get?_register (registry : AliasRegistry) (shortName qualifiedName other : String) :
    (registry.register shortName qualifiedName).2.qualified.get? other
      = if other = shortName ∧ registry.qualified.get? shortName = none
          ∧ isPrimitiveName shortName = false
        then some qualifiedName else registry.qualified.get? other := by
  unfold register assign Table.contains
  cases htaken : registry.qualified.get? shortName with
  | some _ => simp
  | none =>
    cases isPrimitiveName shortName with
    | true => simp
    | false => simp [Table.get?_insert]

theorem configured_register (registry : AliasRegistry) (shortName qualifiedName : String) :
    (registry.register shortName qualifiedName).2.configured = registry.configured := by
  unfold register
  split
  · rfl
  · exact configured_assign registry shortName qualifiedName

/-- An alias means what was assigned to it last, unless it is a primitive name. -/
theorem get?_qualified_assign (registry : AliasRegistry) (shortName qualifiedName other : String) :
    (registry.assign shortName qualifiedName).qualified.get? other
      = if other = shortName ∧ isPrimitiveName shortName = false
        then some qualifiedName else registry.qualified.get? other := by
  unfold assign
  cases isPrimitiveName shortName with
  | true => simp
  | false => simp [Table.get?_insert]

/-- A type keeps the first alias that was assigned to it. -/
theorem get?_firstAlias_assign (registry : AliasRegistry)
    (shortName qualifiedName other : String) :
    (registry.assign shortName qualifiedName).firstAlias.get? other
      = if other = qualifiedName ∧ isPrimitiveName shortName = false
          ∧ registry.firstAlias.get? qualifiedName = none
        then some shortName else registry.firstAlias.get? other := by
  unfold assign
  cases isPrimitiveName shortName with
  | true => simp
  | false => simp [Table.get?_insertNew]

/-- The first alias that some pairs give to a type. -/
def firstAliasIn? (pairs : List (String × String)) (qualifiedName : String) : Option String :=
  (pairs.find? fun pair => !isPrimitiveName pair.1 && pair.2 = qualifiedName).map (·.1)

/-- The type that some pairs give to an alias last. -/
def lastTypeIn? (pairs : List (String × String)) (shortName : String) : Option String :=
  pairs.reverse.lookup shortName

/-- The last pair of an alias decides what it stands for. -/
theorem get?_qualified_assignAll (registry : AliasRegistry) (pairs : List (String × String))
    (shortName : String) (h : isPrimitiveName shortName = false) :
    (registry.assignAll pairs).qualified.get? shortName
      = (lastTypeIn? pairs shortName).or (registry.qualified.get? shortName) := by
  induction pairs generalizing registry with
  | nil => rfl
  | cons pair pairs ih =>
    obtain ⟨name, type⟩ := pair
    have hstep : (registry.assignAll ((name, type) :: pairs)).qualified.get? shortName
        = (lastTypeIn? pairs shortName).or
          ((registry.assign name type).qualified.get? shortName) := ih _
    rw [hstep, get?_qualified_assign, lastTypeIn?, lastTypeIn?, List.reverse_cons,
      List.lookup_append, Option.or_assoc, List.lookup_cons]
    by_cases hsame : shortName = name
    · subst hsame
      simp [h]
    · have hother : (shortName == name) = false := beq_false_of_ne hsame
      simp [hsame, hother]

/-- The first pair of a type decides its alias. -/
theorem get?_firstAlias_assignAll (registry : AliasRegistry) (pairs : List (String × String))
    (qualifiedName : String) :
    (registry.assignAll pairs).firstAlias.get? qualifiedName
      = (registry.firstAlias.get? qualifiedName).or (firstAliasIn? pairs qualifiedName) := by
  induction pairs generalizing registry with
  | nil => exact (Option.or_none).symm
  | cons pair pairs ih =>
    obtain ⟨name, type⟩ := pair
    have hstep : (registry.assignAll ((name, type) :: pairs)).firstAlias.get? qualifiedName
        = ((registry.assign name type).firstAlias.get? qualifiedName).or
          (firstAliasIn? pairs qualifiedName) := ih _
    rw [hstep, get?_firstAlias_assign, firstAliasIn?, firstAliasIn?, List.find?_cons]
    by_cases hpair : isPrimitiveName name = false ∧ qualifiedName = type
    · obtain ⟨hname, rfl⟩ := hpair
      cases registry.firstAlias.get? qualifiedName <;> simp [hname]
    · have hskip : (!isPrimitiveName name && decide (type = qualifiedName)) = false := by
        cases hname : isPrimitiveName name with
        | true => rfl
        | false => exact decide_eq_false fun htype => hpair ⟨hname, htype.symm⟩
      have hkeep : ¬ (qualifiedName = type ∧ isPrimitiveName name = false
          ∧ registry.firstAlias.get? type = none) :=
        fun hall => hpair ⟨hall.2.1, hall.1⟩
      rw [hskip, if_neg hkeep]

/-! ## Tables that fit together -/

/-- The two tables name the same aliases and types. -/
structure Consistent (registry : AliasRegistry) : Prop where
  /-- The first alias of a type stands for something. -/
  first_taken : ∀ {shortName qualifiedName},
    registry.firstAlias.get? qualifiedName = some shortName →
      registry.qualified.get? shortName ≠ none
  /-- A type that an alias stands for has a first alias. -/
  has_alias : ∀ {shortName qualifiedName},
    registry.qualified.get? shortName = some qualifiedName →
      registry.firstAlias.get? qualifiedName ≠ none

/-- Assigning an alias keeps a registry consistent. -/
theorem Consistent.assign (h : registry.Consistent) (shortName qualifiedName : String) :
    (registry.assign shortName qualifiedName).Consistent where
  first_taken := by
    intro other type hfirst
    rw [get?_firstAlias_assign] at hfirst
    rw [get?_qualified_assign]
    split at hfirst
    · next hnew =>
      obtain rfl := Option.some.inj hfirst
      rw [if_pos ⟨rfl, hnew.2.1⟩]
      exact Option.some_ne_none _
    · split
      · exact Option.some_ne_none _
      · exact h.first_taken hfirst
  has_alias := by
    intro other type hother
    rw [get?_qualified_assign] at hother
    rw [get?_firstAlias_assign]
    split
    · exact Option.some_ne_none _
    · next hold =>
      split at hother
      · next hnew =>
        obtain rfl := Option.some.inj hother
        exact fun hnone => hold ⟨rfl, hnew.2, hnone⟩
      · exact h.has_alias hother

theorem consistent_ofConfigured (configured : List (String × String)) :
    (ofConfigured configured).Consistent := by
  have hall : ∀ (pairs : List (String × String)) (registry : AliasRegistry),
      registry.Consistent → (registry.assignAll pairs).Consistent := by
    intro pairs
    induction pairs with
    | nil => exact fun _ h => h
    | cons pair pairs ih => exact fun registry h => ih _ (h.assign pair.1 pair.2)
  refine hall _ _ ⟨?_, ?_⟩
  · intro shortName qualifiedName h
    cases h
  · intro shortName qualifiedName h
    cases h

/-- Registering an alias keeps a registry consistent. -/
theorem Consistent.register (h : registry.Consistent) (shortName qualifiedName : String) :
    (registry.register shortName qualifiedName).2.Consistent := by
  unfold AliasRegistry.register
  split
  · exact h
  · exact h.assign shortName qualifiedName

/-! ## There and back -/

/-- The alias of a type, if it has one, stands for the type. -/
def LeadsBack (registry : AliasRegistry) (qualifiedName : String) : Prop :=
  ∀ shortName, registry.aliasOf? qualifiedName = some shortName →
    registry.declaration? shortName = some (.ofName qualifiedName)

/-- An alias leads to the declaration of the type that it stands for. -/
theorem declaration?_eq_some_iff :
    registry.declaration? shortName = some (.ofName qualifiedName)
      ↔ registry.qualified.get? shortName = some qualifiedName := by
  unfold declaration?
  cases registry.qualified.get? shortName <;> simp [TypeDeclaration.ofName]

/-- A type leads back if its first alias still stands for it. -/
theorem leadsBack_iff :
    registry.LeadsBack qualifiedName ↔ ∀ shortName,
      registry.firstAlias.get? qualifiedName = some shortName →
        registry.qualified.get? shortName = some qualifiedName :=
  forall₂_congr fun _ _ => declaration?_eq_some_iff

/-- A new alias takes no way back away, and adds none that leads elsewhere. -/
theorem Consistent.leadsBack_assign_iff (h : registry.Consistent)
    (hfree : registry.qualified.get? shortName = none)
    (hname : isPrimitiveName shortName = false) (type : String) :
    (registry.assign shortName qualifiedName).LeadsBack type ↔ registry.LeadsBack type := by
  have hkept : ∀ {taken}, registry.qualified.get? taken ≠ none →
      (registry.assign shortName qualifiedName).qualified.get? taken
        = registry.qualified.get? taken := by
    intro taken htaken
    have hother : taken ≠ shortName := fun hsame => htaken (hsame ▸ hfree)
    rw [get?_qualified_assign, if_neg fun hsame => hother hsame.1]
  rw [leadsBack_iff, leadsBack_iff]
  constructor
  · intro hback found hfirst
    have hstill : (registry.assign shortName qualifiedName).firstAlias.get? type = some found := by
      rw [get?_firstAlias_assign, if_neg, hfirst]
      rintro ⟨rfl, _, hnone⟩
      rw [hnone] at hfirst
      cases hfirst
    rw [← hkept (h.first_taken hfirst)]
    exact hback found hstill
  · intro hback found hfirst
    rw [get?_firstAlias_assign] at hfirst
    split at hfirst
    · next hnew =>
      obtain rfl := Option.some.inj hfirst
      rw [get?_qualified_assign, if_pos ⟨rfl, hname⟩, hnew.1]
    · rw [hkept (h.first_taken hfirst)]
      exact hback found hfirst

/-- Registering an alias makes no difference to which types lead back, since taken aliases are
refused. -/
theorem Consistent.leadsBack_register_iff (h : registry.Consistent)
    (shortName qualifiedName type : String) :
    (registry.register shortName qualifiedName).2.LeadsBack type ↔ registry.LeadsBack type := by
  unfold AliasRegistry.register
  split
  · exact Iff.rfl
  · next hadded =>
    rw [Bool.or_eq_true, not_or, Bool.not_eq_true, Bool.not_eq_true, Table.contains,
      Option.isSome_eq_false_iff, Option.isNone_iff_eq_none] at hadded
    exact h.leadsBack_assign_iff hadded.1 hadded.2 type

/-! ## Calls one after the other -/

/-- A call that changes a registry. -/
inductive Call where
  /-- Adds a discovered alias. -/
  | register (shortName qualifiedName : String)
  /-- Forgets the discovered aliases. -/
  | reset

/-- The registry after a call. -/
def perform (registry : AliasRegistry) : Call → AliasRegistry
  | .register shortName qualifiedName => (registry.register shortName qualifiedName).2
  | .reset => registry.reset

/-- The registry of some configured aliases after some calls. -/
def ofCalls (configured : List (String × String)) (calls : List Call) : AliasRegistry :=
  calls.foldl perform (ofConfigured configured)

/-- Calls keep the tables consistent, and a way back as it was in the beginning. -/
structure KeepsWays (configured : List (String × String)) (registry : AliasRegistry) : Prop where
  /-- The configured aliases are kept for a reset. -/
  configured_eq : registry.configured = configured
  /-- The tables fit together. -/
  consistent : registry.Consistent
  /-- The ways back are those of the beginning. -/
  leadsBack_iff : ∀ type, registry.LeadsBack type ↔ (ofConfigured configured).LeadsBack type

/-- A new registry has the ways back of its beginning. -/
theorem keepsWays_ofConfigured (configured : List (String × String)) :
    (ofConfigured configured).KeepsWays configured :=
  ⟨configured_ofConfigured configured, consistent_ofConfigured configured, fun _ => Iff.rfl⟩

/-- Every call keeps the ways back as they were in the beginning. -/
theorem KeepsWays.perform (h : registry.KeepsWays configured) (call : Call) :
    (registry.perform call).KeepsWays configured := by
  cases call with
  | register shortName qualifiedName =>
    refine ⟨?_, h.consistent.register shortName qualifiedName, fun type => ?_⟩
    · exact (configured_register registry shortName qualifiedName).trans h.configured_eq
    · exact (h.consistent.leadsBack_register_iff shortName qualifiedName type).trans
        (h.leadsBack_iff type)
  | reset =>
    rw [AliasRegistry.perform, reset, h.configured_eq]
    exact keepsWays_ofConfigured configured

/-- After any calls, types lead back as they did in the beginning. -/
theorem keepsWays_ofCalls (configured : List (String × String)) (calls : List Call) :
    (ofCalls configured calls).KeepsWays configured := by
  induction calls using List.reverseRecOn with
  | nil => exact keepsWays_ofConfigured configured
  | append_singleton calls last ih =>
    rw [ofCalls, List.foldl_append]
    exact ih.perform last

/-- The first alias that some pairs give to a type is not given to another type last. -/
def FirstAliasStands (pairs : List (String × String)) (qualifiedName : String) : Prop :=
  ∀ shortName, firstAliasIn? pairs qualifiedName = some shortName →
    lastTypeIn? pairs shortName = some qualifiedName

/-- In a new registry, the first alias of a type is the first one in the list of pairs. -/
theorem get?_firstAlias_ofConfigured (configured : List (String × String))
    (qualifiedName : String) :
    (ofConfigured configured).firstAlias.get? qualifiedName
      = firstAliasIn? (builtinAliases ++ configured) qualifiedName := by
  unfold ofConfigured
  generalize builtinAliases ++ configured = pairs
  rw [get?_firstAlias_assignAll, Table.get?_empty, Option.none_or]

/-- In a new registry, an alias stands for the last type that the list of pairs gives it. -/
theorem get?_qualified_ofConfigured (configured : List (String × String))
    (h : isPrimitiveName shortName = false) :
    (ofConfigured configured).qualified.get? shortName
      = lastTypeIn? (builtinAliases ++ configured) shortName := by
  unfold ofConfigured
  generalize builtinAliases ++ configured = pairs
  rw [get?_qualified_assignAll _ _ _ h, Table.get?_empty, Option.or_none]

/-- Primitive names are never first aliases. -/
theorem not_isPrimitiveName_of_firstAliasIn?
    (h : firstAliasIn? pairs qualifiedName = some shortName) :
    isPrimitiveName shortName = false := by
  unfold firstAliasIn? at h
  obtain ⟨pair, hpair, rfl⟩ := Option.map_eq_some_iff.1 h
  have hfound := List.find?_some hpair
  rw [Bool.and_eq_true, Bool.not_eq_true'] at hfound
  exact hfound.1

/-- In a new registry, a type leads back exactly if no later pair gives its first alias to another
type. -/
theorem leadsBack_ofConfigured_iff (configured : List (String × String))
    (qualifiedName : String) :
    (ofConfigured configured).LeadsBack qualifiedName
      ↔ FirstAliasStands (builtinAliases ++ configured) qualifiedName := by
  rw [leadsBack_iff]
  simp only [get?_firstAlias_ofConfigured]
  refine forall₂_congr fun shortName hfirst => ?_
  rw [get?_qualified_ofConfigured configured (not_isPrimitiveName_of_firstAliasIn? hfirst)]

/-- Whatever is registered and however often the registry is reset, every type that an alias
stands for has an alias; and the alias of a type stands for the type if and only if the starting
pairs do not give the first alias of the type to another type later. -/
theorem alias_directions_agree_iff (configured : List (String × String)) (calls : List Call) :
    ∀ qualifiedName,
      ((ofCalls configured calls).LeadsBack qualifiedName
        ↔ FirstAliasStands (builtinAliases ++ configured) qualifiedName)
      ∧ ((∃ shortName, (ofCalls configured calls).declaration? shortName
          = some (.ofName qualifiedName)) →
        ((ofCalls configured calls).aliasOf? qualifiedName).isSome = true) := by
  intro qualifiedName
  have hways := keepsWays_ofCalls configured calls
  constructor
  · rw [hways.leadsBack_iff, leadsBack_ofConfigured_iff]
  · rintro ⟨shortName, hdeclared⟩
    have hstands := declaration?_eq_some_iff.1 hdeclared
    exact Option.isSome_iff_ne_none.2 (hways.consistent.has_alias hstands)

/-- The ways can part: a configured alias that replaces `Number` leaves the type of boxed numbers
with an alias that stands for another type. -/
theorem replaced_alias_leads_elsewhere :
    (ofCalls [("Number", "com.acme.Num")] []).aliasOf? "java.lang.Number" = some "Number"
      ∧ (ofCalls [("Number", "com.acme.Num")] []).declaration? "Number"
        = some (.ofName "com.acme.Num")
      ∧ ¬ (ofCalls [("Number", "com.acme.Num")] []).LeadsBack "java.lang.Number" := by
  have halias : (ofCalls [("Number", "com.acme.Num")] []).aliasOf? "java.lang.Number"
      = some "Number" := by
    rfl
  have hdeclared : (ofCalls [("Number", "com.acme.Num")] []).declaration? "Number"
      = some (.ofName "com.acme.Num") := by
    rfl
  refine ⟨halias, hdeclared, fun hback => ?_⟩
  have hsame := hback "Number" halias
  rw [hdeclared] at hsame
  revert hsame
  decide

end ClassAtlas.AliasRegistry
