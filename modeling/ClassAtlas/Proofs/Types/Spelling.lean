import ClassAtlas.Types.Overload

/-!
# What overload selection reads of the aliases

Aliases are looked up for the element of a written type name, which is what is left
without blanks and array suffixes. Overload selection reads the aliases for the
arguments of a call, and for the parameters of the candidates that have its name and
its number of arguments. Registries that agree there select the same candidate.
-/

namespace ClassAtlas

/-- A written type name without blanks and array suffixes, of which at most `limit` are taken
off. -/
def elementWithin : (limit : Nat) → (name : String) → String
  | 0, name => Text.trim name
  | limit + 1, name =>
    match elementName? (Text.trim name) with
    | some element => elementWithin limit element
    | none => Text.trim name

/-- The type name inside a written type name. -/
def writtenElement (name : String) : String :=
  elementWithin name.length name

namespace AliasRegistry

/-- What an element is replaced by, if an alias makes a difference. -/
def standsFor? (registry : AliasRegistry) (element : String) : Option String :=
  match registry.qualified.get? element with
  | some qualifiedName => if qualifiedName = element then none else some qualifiedName
  | none => none

/-- Two registries spell a type name alike. -/
def SpellsAlike (first second : AliasRegistry) (name : String) : Prop :=
  first.normalize name = second.normalize name

variable {first second : AliasRegistry}

section Unfolding

-- The two equations hold by definition, whatever the suffix is; it is not to be computed.
attribute [local irreducible] elementName?

theorem replacement?_zero (registry : AliasRegistry) (name : String) :
    registry.replacement? 0 name
      = match elementName? (Text.trim name) with
        | some _ => none
        | none => registry.standsFor? (Text.trim name) := by
  delta replacement?
  rfl

theorem replacement?_succ (registry : AliasRegistry) (limit : Nat) (name : String) :
    registry.replacement? (limit + 1) name
      = match elementName? (Text.trim name) with
        | some element => (registry.replacement? limit element).map (· ++ "[]")
        | none => registry.standsFor? (Text.trim name) := by
  delta replacement?
  rfl

end Unfolding

/-- A replacement depends on the element. The induction is on the suffixes that can be taken
off. -/
theorem replacement?_congr {limit : Nat} {name : String}
    (h : first.standsFor? (elementWithin limit name)
      = second.standsFor? (elementWithin limit name)) :
    first.replacement? limit name = second.replacement? limit name := by
  induction limit generalizing name with
  | zero =>
    rw [replacement?_zero, replacement?_zero]
    rw [elementWithin] at h
    rw [h]
  | succ limit ih =>
    rw [replacement?_succ, replacement?_succ]
    rw [elementWithin] at h
    cases helement : elementName? (Text.trim name) with
    | none =>
      rw [helement] at h
      exact h
    | some element =>
      rw [helement] at h
      simp only [ih h]

/-- Registries that agree on the element spell a name alike. -/
theorem spellsAlike_of_standsFor? {name : String}
    (h : first.standsFor? (writtenElement name) = second.standsFor? (writtenElement name)) :
    SpellsAlike first second name := by
  unfold SpellsAlike normalize
  rw [replacement?_congr h]

namespace SpellsAlike

variable {actual formal : String}

/-- An argument that is spelled alike is of the same kind. -/
theorem classify_eq (h : SpellsAlike first second actual) :
    first.classify actual = second.classify actual := by
  have hsame : first.normalize actual = second.normalize actual := h
  simp only [classify, hsame]

/-- Types that are spelled alike convert with the same score. -/
theorem parameterScore_eq (hactual : SpellsAlike first second actual)
    (hformal : SpellsAlike first second formal) :
    first.parameterScore actual formal = second.parameterScore actual formal := by
  have hsource : first.normalize actual = second.normalize actual := hactual
  have htarget : first.normalize formal = second.normalize formal := hformal
  simp only [parameterScore, hactual.classify_eq, hsource, htarget]

end SpellsAlike

/-- Arguments and parameters that are spelled alike have the same sum of scores. -/
theorem sumScores_congr {pairs : List (String × String)}
    (h : ∀ pair ∈ pairs, SpellsAlike first second pair.1 ∧ SpellsAlike first second pair.2)
    (sofar : Nat) : first.sumScores sofar pairs = second.sumScores sofar pairs := by
  induction pairs generalizing sofar with
  | nil => rfl
  | cons pair rest ih =>
    obtain ⟨hpair, hrest⟩ := List.forall_mem_cons.1 h
    simp only [sumScores, hpair.1.parameterScore_eq hpair.2, ih hrest]

/-- Whether two registries spell the parameters of a candidate alike, as far as the candidate
has the name and the number of parameters of a call. -/
def SpellAlikeFor (first second : AliasRegistry) (name : String) (arguments : List String)
    (candidate : Candidate) : Prop :=
  candidate.name = name → candidate.parameterTypes.length = arguments.length →
    ∀ formal ∈ candidate.parameterTypes, SpellsAlike first second formal

variable {name : String} {arguments : List String}

/-- A candidate whose types are spelled alike has the same score. -/
theorem score_congr {candidate : Candidate}
    (harguments : ∀ actual ∈ arguments, SpellsAlike first second actual)
    (hcandidate : SpellAlikeFor first second name arguments candidate) :
    first.score candidate name arguments = second.score candidate name arguments := by
  unfold score
  split
  · rfl
  · next hsame =>
    obtain ⟨hname, hlength⟩ := not_or.1 hsame
    have hformals := hcandidate (Decidable.not_not.1 hname) (Decidable.not_not.1 hlength)
    apply sumScores_congr
    rintro ⟨actual, formal⟩ hpair
    obtain ⟨hactual, hformal⟩ := List.of_mem_zip hpair
    exact ⟨harguments actual hactual, hformals formal hformal⟩

/-- Registries that agree on the arguments and on the parameters in question select the same
candidate. -/
theorem best_congr {γ : Type} {view : γ → Candidate} {candidates : List γ}
    (harguments : ∀ actual ∈ arguments, SpellsAlike first second actual)
    (hcandidates : ∀ item ∈ candidates, SpellAlikeFor first second name arguments (view item)) :
    first.best view candidates name arguments = second.best view candidates name arguments := by
  unfold best
  generalize (none : Option (γ × Nat)) = best
  induction candidates generalizing best with
  | nil => rfl
  | cons item rest ih =>
    obtain ⟨hitem, hrest⟩ := List.forall_mem_cons.1 hcandidates
    simp only [bestBehind, score_congr harguments hitem, ih hrest]

end AliasRegistry

end ClassAtlas
