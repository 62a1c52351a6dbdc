import ClassAtlas.Proofs.Text.Splitting
import ClassAtlas.Proofs.Types.Ancestry

/-!
# Rules of assignment

The rules of the platform say what can be assigned without conversion: a type to
itself, arrays by their elements, an array to the three types every array belongs
to, a class to what is above it. `Hierarchy.Assigns` states them, and
`Hierarchy.Answers` is the procedure that takes array suffixes off and then
searches what is above a class, with no limit on either. The procedure comes to an
end on every hierarchy, cyclic ones included, its answer is that of the rules, and
the rules make a preorder wherever the types of all arrays have nothing but the
root of all classes above them.
-/

namespace ClassAtlas

variable {name source target element sourceElement targetElement : String}

/-- The name of an array is that of its elements with brackets behind it. -/
theorem elementName?_eq_some_iff : elementName? name = some element ↔ name = element ++ "[]" :=
  Text.dropEnding?_eq_some_iff "[]" name element

/-- An array name is longer than the name of its elements. -/
theorem length_lt_of_elementName? (h : elementName? name = some element) :
    element.length < name.length := by
  have hbrackets : "[]".length = 2 := rfl
  rw [elementName?_eq_some_iff.1 h, String.length_append]
  omega

/-- Arrays of the same elements have the same name. -/
theorem eq_of_elementName? (hsource : elementName? source = some element)
    (htarget : elementName? target = some element) : source = target := by
  rw [elementName?_eq_some_iff.1 hsource, elementName?_eq_some_iff.1 htarget]

/-- A name with an element is that of an array. -/
theorem isArrayName_of_elementName? (h : elementName? name = some element) :
    isArrayName name = true := by
  rw [isArrayName_eq_isSome, h, Option.isSome_some]

/-- Arrays are no classes. -/
theorem not_isClassName_of_isArrayName (h : isArrayName name = true) :
    ¬ isClassName name = true := by
  intro hclass
  rw [isArrayName_eq_isSome, (isClassName_iff.1 hclass).2] at h
  cases h

theorem not_isClassName_of_elementName? (h : elementName? name = some element) :
    ¬ isClassName name = true :=
  not_isClassName_of_isArrayName (isArrayName_of_elementName? h)

namespace Hierarchy

/-! ## The rules -/

/-- What can be assigned to what without conversion. -/
inductive Assigns (hierarchy : Hierarchy) : (source target : String) → Prop where
  /-- Every type to itself. -/
  | same (name : String) : Assigns hierarchy name name
  /-- Arrays of the same primitive type. -/
  | primitiveElements {source target element : String}
      (hsource : elementName? source = some element) (htarget : elementName? target = some element)
      (hprimitive : isPrimitiveName element = true) : Assigns hierarchy source target
  /-- Arrays of types that are not primitive, by the elements. -/
  | elements {source target sourceElement targetElement : String}
      (hsource : elementName? source = some sourceElement)
      (htarget : elementName? target = some targetElement)
      (hsourcePlain : isPrimitiveName sourceElement = false)
      (htargetPlain : isPrimitiveName targetElement = false)
      (helements : Assigns hierarchy sourceElement targetElement) :
      Assigns hierarchy source target
  /-- An array to a type that every array belongs to. -/
  | arrayType {source target : String} (hsource : isArrayName source = true)
      (htarget : target ∈
        [PlatformName.object, PlatformName.cloneable, PlatformName.serializable]) :
      Assigns hierarchy source target
  /-- Every class to the root of all classes. -/
  | root {source : String} (hsource : isClassName source = true) :
      Assigns hierarchy source PlatformName.object
  /-- A class to a class above it. -/
  | above {source target : String} (hsource : isClassName source = true)
      (htarget : isClassName target = true)
      (habove : Relation.TransGen hierarchy.IsBelow source target) :
      Assigns hierarchy source target

/-! ## The procedure without limits -/

/-- The search for a target above pending names, the next one first, behind the names that
were visited: it comes to an end with an answer. -/
inductive Searches (hierarchy : Hierarchy) (target : String) :
    (pending visited : List String) → (answer : Bool) → Prop where
  /-- Nothing is pending. -/
  | exhausted {visited : List String} : Searches hierarchy target [] visited false
  /-- A name that was visited is skipped. -/
  | skip {name : String} {pending visited : List String} {answer : Bool} (h : name ∈ visited)
      (rest : Searches hierarchy target pending visited answer) :
      Searches hierarchy target (name :: pending) visited answer
  /-- The target is a parent. -/
  | found {name : String} {pending visited : List String} (h : name ∉ visited)
      (htarget : target ∈ hierarchy.parents name) :
      Searches hierarchy target (name :: pending) visited true
  /-- The search goes on with the parents, the last one first. -/
  | onward {name : String} {pending visited : List String} {answer : Bool} (h : name ∉ visited)
      (htarget : target ∉ hierarchy.parents name)
      (rest : Searches hierarchy target ((hierarchy.parents name).reverse ++ pending)
        (name :: visited) answer) :
      Searches hierarchy target (name :: pending) visited answer

/-- The procedure that decides an assignment comes to an end with an answer. -/
inductive Answers (hierarchy : Hierarchy) : (source target : String) → (answer : Bool) → Prop where
  /-- The names are equal. -/
  | same (name : String) : Answers hierarchy name name true
  /-- One of two different names is primitive. -/
  | primitive {source target : String} (hne : source ≠ target)
      (hprimitive : (isPrimitiveName source || isPrimitiveName target) = true) :
      Answers hierarchy source target false
  /-- One of two different arrays has primitive elements. -/
  | primitiveElement {source target sourceElement targetElement : String} (hne : source ≠ target)
      (hsource : elementName? source = some sourceElement)
      (htarget : elementName? target = some targetElement)
      (hprimitive : (isPrimitiveName sourceElement || isPrimitiveName targetElement) = true) :
      Answers hierarchy source target (decide (sourceElement = targetElement))
  /-- The elements of two different arrays decide. -/
  | elements {source target sourceElement targetElement : String} {answer : Bool}
      (hne : source ≠ target) (hsource : elementName? source = some sourceElement)
      (htarget : elementName? target = some targetElement)
      (hplain : (isPrimitiveName sourceElement || isPrimitiveName targetElement) = false)
      (rest : Answers hierarchy sourceElement targetElement answer) :
      Answers hierarchy source target answer
  /-- An array is assigned to something else. -/
  | arrayType {source target : String} (hsource : isArrayName source = true)
      (htarget : isClassName target = true) :
      Answers hierarchy source target (decide (target ∈ arraySupertypes))
  /-- A class is assigned to an array. -/
  | arrayTarget {source target : String} (hsource : isClassName source = true)
      (htarget : isArrayName target = true) : Answers hierarchy source target false
  /-- A class is assigned to the root of all classes. -/
  | root {source : String} (hsource : isClassName source = true) :
      Answers hierarchy source PlatformName.object true
  /-- What is above a class is searched. -/
  | search {source target : String} {answer : Bool} (hne : source ≠ target)
      (hsource : isClassName source = true) (htarget : isClassName target = true)
      (hroot : target ≠ PlatformName.object)
      (rest : Searches hierarchy target [source] [] answer) :
      Answers hierarchy source target answer

variable {hierarchy : Hierarchy}

/-- A walk through everything above some names is a search, which finds the target exactly
if a name that the walk adds has it as a parent. -/
theorem exists_searches {pending visited result : List String}
    (h : Walk.Completes id (fun name => (hierarchy.parents name).reverse) pending visited result)
    (target : String) :
    ∃ answer, hierarchy.Searches target pending visited answer
      ∧ (answer = true ↔ ∃ name ∈ result, name ∉ visited ∧ target ∈ hierarchy.parents name) := by
  induction h with
  | @done visited =>
    have hnone : ¬ ∃ name ∈ visited.reverse, name ∉ visited ∧ target ∈ hierarchy.parents name := by
      rintro ⟨name, hmem, hnew, _⟩
      exact hnew (List.mem_reverse.1 hmem)
    exact ⟨false, .exhausted, iff_of_false Bool.false_ne_true hnone⟩
  | @skip name pending visited result hold _ ih =>
    obtain ⟨answer, hsearch, hanswer⟩ := ih
    rw [List.map_id] at hold
    exact ⟨answer, .skip hold hsearch, hanswer⟩
  | @visit name pending visited result hnew rest ih =>
    obtain ⟨answer, hsearch, hanswer⟩ := ih
    rw [List.map_id] at hnew
    have hvisited : name ∈ result := rest.mem_of_mem_visited List.mem_cons_self
    by_cases htarget : target ∈ hierarchy.parents name
    · exact ⟨true, .found hnew htarget, iff_of_true rfl ⟨name, hvisited, hnew, htarget⟩⟩
    · refine ⟨answer, .onward hnew htarget hsearch, hanswer.trans (exists_congr fun other => ?_)⟩
      -- the visited name itself does not have the target as a parent
      have hother : target ∈ hierarchy.parents other → other ≠ name := by
        intro hparent hsame
        exact htarget (hsame ▸ hparent)
      simp only [List.mem_cons, not_or]
      constructor
      · rintro ⟨hmem, ⟨_, hunvisited⟩, hparent⟩
        exact ⟨hmem, hunvisited, hparent⟩
      · rintro ⟨hmem, hunvisited, hparent⟩
        exact ⟨hmem, ⟨hother hparent, hunvisited⟩, hparent⟩

/-- The search comes to an end on every hierarchy, and finds what is above a name. -/
theorem searches_reaches (hierarchy : Hierarchy) (source target : String) :
    hierarchy.Searches target [source] [] (hierarchy.reaches source target) := by
  obtain ⟨answer, hsearch, hanswer⟩ := exists_searches (hierarchy.completes_ancestry source) target
  have hreaches : hierarchy.reaches source target = true
      ↔ ∃ name ∈ hierarchy.ancestry source, target ∈ hierarchy.parents name := by
    simp only [reaches, List.any_eq_true, List.contains_iff_mem]
  have hsame : answer = hierarchy.reaches source target := by
    rw [Bool.eq_iff_iff, hanswer, hreaches]
    simp only [List.not_mem_nil, not_false_eq_true, true_and]
  rw [← hsame]
  exact hsearch

/-- The procedure comes to an end where the limit covers the array suffixes. The induction is
on the length of the name: that of an element is shorter than that of its array. -/
theorem answers_assignmentCase (hierarchy : Hierarchy) {limit : Nat}
    (hlimit : source.length ≤ limit) :
    hierarchy.Answers source target
      (match assignmentCase limit source target with
      | .settled answer => answer
      | .search source target => hierarchy.reaches source target) := by
  induction hlength : source.length using Nat.strong_induction_on
    generalizing source target limit with
  | _ length ih =>
    unfold assignmentCase
    by_cases hsame : source = target
    · rw [if_pos hsame, hsame]
      exact .same target
    rw [if_neg hsame]
    by_cases hprimitive : (isPrimitiveName source || isPrimitiveName target) = true
    · rw [if_pos hprimitive]
      exact .primitive hsame hprimitive
    rw [if_neg hprimitive]
    obtain ⟨hsourcePlain, htargetPlain⟩ :
        isPrimitiveName source = false ∧ isPrimitiveName target = false := by
      rw [Bool.or_eq_true, not_or, Bool.not_eq_true, Bool.not_eq_true] at hprimitive
      exact hprimitive
    have hclass : ∀ {name}, isPrimitiveName name = false → elementName? name = none →
        isClassName name = true := fun hplain hnone => isClassName_iff.2 ⟨hplain, hnone⟩
    cases hsource : elementName? source with
    | some sourceElement =>
      cases htarget : elementName? target with
      | some targetElement =>
        by_cases helement : (isPrimitiveName sourceElement || isPrimitiveName targetElement) = true
        · simp only [if_pos helement]
          exact .primitiveElement hsame hsource htarget helement
        · simp only [if_neg helement]
          have hshorter := length_lt_of_elementName? hsource
          have hpositive : limit = limit - 1 + 1 := by omega
          rw [hpositive]
          refine .elements hsame hsource htarget (Bool.eq_false_iff.2 helement) ?_
          exact ih sourceElement.length (by omega) (by omega) rfl
      | none =>
        simp only [List.contains_eq_mem]
        exact .arrayType (isArrayName_of_elementName? hsource) (hclass htargetPlain htarget)
    | none =>
      cases htarget : elementName? target with
      | some targetElement =>
        exact .arrayTarget (hclass hsourcePlain hsource) (isArrayName_of_elementName? htarget)
      | none =>
        by_cases hroot : target = PlatformName.object
        · simp only [if_pos hroot]
          rw [hroot]
          exact .root (hclass hsourcePlain hsource)
        · simp only [if_neg hroot]
          exact .search hsame (hclass hsourcePlain hsource) (hclass htargetPlain htarget) hroot
            (searches_reaches hierarchy source target)

/-- On every hierarchy, the procedure without limits comes to an end with the answer that is
computed. -/
theorem answers_isAssignable (hierarchy : Hierarchy) (source target : String) :
    hierarchy.Answers source target (hierarchy.isAssignable source target) :=
  hierarchy.answers_assignmentCase (Nat.le_refl source.length)

/-! ## The procedure follows the rules -/

/-- A search has one answer only. -/
theorem Searches.unique {pending visited : List String} {answer other : Bool}
    (h : hierarchy.Searches target pending visited answer)
    (h' : hierarchy.Searches target pending visited other) : answer = other := by
  induction h with
  | exhausted =>
    cases h' with
    | exhausted => rfl
  | skip hold _ ih =>
    cases h' with
    | skip _ rest => exact ih rest
    | found hnew _ => exact absurd hold hnew
    | onward hnew _ _ => exact absurd hold hnew
  | found hnew hparent =>
    cases h' with
    | skip hold _ => exact absurd hold hnew
    | found _ _ => rfl
    | onward _ hother _ => exact absurd hparent hother
  | onward hnew hother _ ih =>
    cases h' with
    | skip hold _ => exact absurd hold hnew
    | found _ hparent => exact absurd hparent hother
    | onward _ _ rest => exact ih rest

/-- A search from a class finds what is above it. -/
theorem Searches.eq_true_iff {answer : Bool} (h : hierarchy.Searches target [source] [] answer) :
    answer = true ↔ Relation.TransGen hierarchy.IsBelow source target := by
  rw [h.unique (searches_reaches hierarchy source target), reaches_iff]

/-- The supertypes of all arrays are classes. -/
theorem isClassName_of_mem_arraySupertypes (h : target ∈ arraySupertypes) :
    isClassName target = true := by
  have hclasses : ∀ name ∈ arraySupertypes, isClassName name = true := by decide
  exact hclasses target h

/-- Between different types the rules go by their shapes, and none of them is primitive. -/
theorem Assigns.cases_of_ne (h : hierarchy.Assigns source target) (hne : source ≠ target) :
    (isPrimitiveName source || isPrimitiveName target) = false
      ∧ ((∃ sourceElement targetElement, elementName? source = some sourceElement
            ∧ elementName? target = some targetElement
            ∧ (isPrimitiveName sourceElement || isPrimitiveName targetElement) = false
            ∧ hierarchy.Assigns sourceElement targetElement)
          ∨ isArrayName source = true ∧ target ∈ arraySupertypes
          ∨ isClassName source = true ∧ isClassName target = true
            ∧ (target = PlatformName.object
              ∨ Relation.TransGen hierarchy.IsBelow source target)) := by
  simp only [Bool.or_eq_false_iff]
  have helement : ∀ {name element}, elementName? name = some element →
      isPrimitiveName name = false :=
    fun helement => isPrimitiveName_of_isArrayName (isArrayName_of_elementName? helement)
  have hclass : ∀ {name}, isClassName name = true → isPrimitiveName name = false :=
    fun hname => (isClassName_iff.1 hname).1
  cases h with
  | same => exact absurd rfl hne
  | primitiveElements hsource htarget _ =>
    exact absurd (eq_of_elementName? hsource htarget) hne
  | elements hsource htarget hsourcePlain htargetPlain helements =>
    exact ⟨⟨helement hsource, helement htarget⟩,
      .inl ⟨_, _, hsource, htarget, ⟨hsourcePlain, htargetPlain⟩, helements⟩⟩
  | arrayType hsource htarget =>
    have htargetClass := isClassName_of_mem_arraySupertypes htarget
    exact ⟨⟨isPrimitiveName_of_isArrayName hsource, hclass htargetClass⟩,
      .inr (.inl ⟨hsource, htarget⟩)⟩
  | root hsource =>
    have hobject : isClassName PlatformName.object = true := by decide
    exact ⟨⟨hclass hsource, hclass hobject⟩, .inr (.inr ⟨hsource, hobject, .inl rfl⟩)⟩
  | above hsource htarget habove =>
    exact ⟨⟨hclass hsource, hclass htarget⟩, .inr (.inr ⟨hsource, htarget, .inr habove⟩)⟩

/-- Different arrays go by their elements. -/
theorem assigns_elements_iff (hne : source ≠ target)
    (hsource : elementName? source = some sourceElement)
    (htarget : elementName? target = some targetElement) :
    hierarchy.Assigns source target
      ↔ (isPrimitiveName sourceElement || isPrimitiveName targetElement) = false
        ∧ hierarchy.Assigns sourceElement targetElement := by
  have hsourceShape := not_isClassName_of_elementName? hsource
  have htargetShape := not_isClassName_of_elementName? htarget
  constructor
  · intro h
    obtain ⟨_, ⟨a, b, ha, hb, hplain, helements⟩ | ⟨_, harray⟩ | ⟨hclass, _⟩⟩ := h.cases_of_ne hne
    · rw [hsource, Option.some.injEq] at ha
      rw [htarget, Option.some.injEq] at hb
      rw [ha, hb]
      exact ⟨hplain, helements⟩
    · exact absurd (isClassName_of_mem_arraySupertypes harray) htargetShape
    · exact absurd hclass hsourceShape
  · rintro ⟨hplain, helements⟩
    obtain ⟨hsourcePlain, htargetPlain⟩ := Bool.or_eq_false_iff.1 hplain
    exact .elements hsource htarget hsourcePlain htargetPlain helements

/-- From an array to something else only the types of all arrays count. -/
theorem assigns_arrayType_iff (hsource : isArrayName source = true)
    (htarget : isClassName target = true) :
    hierarchy.Assigns source target ↔ target ∈ arraySupertypes := by
  have hsourceShape := not_isClassName_of_isArrayName hsource
  constructor
  · intro h
    have hne : source ≠ target := fun hsame => hsourceShape (hsame ▸ htarget)
    obtain ⟨_, ⟨_, _, _, htargetElement, _⟩ | ⟨_, harray⟩ | ⟨hclass, _⟩⟩ := h.cases_of_ne hne
    · exact absurd htarget (not_isClassName_of_elementName? htargetElement)
    · exact harray
    · exact absurd hclass hsourceShape
  · exact .arrayType hsource

/-- From a class only classes can be assigned to: itself, the root of all classes, and what is
above it. -/
theorem Assigns.eq_or_above (h : hierarchy.Assigns source target)
    (hsource : isClassName source = true) :
    source = target ∨ isClassName target = true
      ∧ (target = PlatformName.object ∨ Relation.TransGen hierarchy.IsBelow source target) := by
  refine or_iff_not_imp_left.2 fun hne => ?_
  obtain ⟨_, ⟨_, _, helement, _⟩ | ⟨harray, _⟩ | ⟨_, habove⟩⟩ := h.cases_of_ne hne
  · exact absurd hsource (not_isClassName_of_elementName? helement)
  · exact absurd hsource (not_isClassName_of_isArrayName harray)
  · exact habove

/-- No class can be assigned to an array. -/
theorem not_assigns_array (hsource : isClassName source = true)
    (htarget : isArrayName target = true) : ¬ hierarchy.Assigns source target := by
  have htargetShape := not_isClassName_of_isArrayName htarget
  intro h
  rcases h.eq_or_above hsource with hsame | ⟨hclass, _⟩
  · exact htargetShape (hsame ▸ hsource)
  · exact htargetShape hclass

/-- Between different classes the root of all classes and what is above count. -/
theorem assigns_class_iff (hne : source ≠ target) (hsource : isClassName source = true)
    (htarget : isClassName target = true) :
    hierarchy.Assigns source target
      ↔ target = PlatformName.object ∨ Relation.TransGen hierarchy.IsBelow source target := by
  constructor
  · intro h
    exact ((h.eq_or_above hsource).resolve_left hne).2
  · rintro (rfl | habove)
    · exact .root hsource
    · exact .above hsource htarget habove

/-- The answer of the procedure is that of the rules. The induction is on its course. -/
theorem Answers.eq_true_iff {answer : Bool} (h : hierarchy.Answers source target answer) :
    answer = true ↔ hierarchy.Assigns source target := by
  induction h with
  | same name => exact iff_of_true rfl (.same name)
  | primitive hne hprimitive =>
    refine iff_of_false Bool.false_ne_true fun hassigns => ?_
    rw [(hassigns.cases_of_ne hne).1] at hprimitive
    cases hprimitive
  | primitiveElement hne hsource htarget hprimitive =>
    -- different arrays have different elements, and no rule is left for those
    refine iff_of_false (fun hsame => hne ?_) fun hassigns => ?_
    · rw [decide_eq_true_iff] at hsame
      exact eq_of_elementName? (hsame ▸ hsource) htarget
    · rw [((assigns_elements_iff hne hsource htarget).1 hassigns).1] at hprimitive
      cases hprimitive
  | elements hne hsource htarget hplain _ ih =>
    rw [ih, assigns_elements_iff hne hsource htarget, hplain]
    exact (and_iff_right rfl).symm
  | arrayType hsource htarget =>
    rw [decide_eq_true_iff, assigns_arrayType_iff hsource htarget]
  | arrayTarget hsource htarget =>
    exact iff_of_false Bool.false_ne_true (not_assigns_array hsource htarget)
  | root hsource => exact iff_of_true rfl (.root hsource)
  | search hne hsource htarget hroot hsearch =>
    rw [hsearch.eq_true_iff, assigns_class_iff hne hsource htarget]
    exact (or_iff_right hroot).symm

/-- The procedure decides the rules. -/
theorem isAssignable_iff_assigns :
    hierarchy.isAssignable source target = true ↔ hierarchy.Assigns source target :=
  (hierarchy.answers_isAssignable source target).eq_true_iff

/-- On every hierarchy with finitely many names, cycles allowed, and for all types: the
procedure without limits comes to an end, its answer is the one that is computed, and the
answer is yes exactly where the rules let one type be assigned to the other. -/
theorem isAssignable_decides_rules (hierarchy : Hierarchy) (source target : String) :
    hierarchy.Answers source target (hierarchy.isAssignable source target)
      ∧ (hierarchy.isAssignable source target = true ↔ hierarchy.Assigns source target) :=
  ⟨hierarchy.answers_isAssignable source target, isAssignable_iff_assigns⟩

/-! ## A preorder -/

/-- The types of all arrays have nothing above them but the root of all classes. -/
def RootsOnTop (hierarchy : Hierarchy) : Prop :=
  ∀ name ∈ [PlatformName.object, PlatformName.cloneable, PlatformName.serializable],
    ∀ upper ∈ hierarchy.supertypes name, upper = PlatformName.object

/-- Nothing but the root of all classes is above a type of all arrays. -/
theorem RootsOnTop.eq_object (h : hierarchy.RootsOnTop) (hsource : source ∈ arraySupertypes)
    (habove : Relation.TransGen hierarchy.IsBelow source target) :
    target = PlatformName.object := by
  have hbuiltin : ∀ name ∈ arraySupertypes, listedSupertypes builtinSupertypes name = [] := by
    decide
  have hobject : PlatformName.object ∈ arraySupertypes := by decide
  have hparent : ∀ name ∈ arraySupertypes, ∀ upper, hierarchy.IsBelow name upper →
      upper = PlatformName.object := by
    intro name hname upper hupper
    unfold IsBelow parents at hupper
    split at hupper
    · rw [hbuiltin name hname] at hupper
      cases hupper
    · exact h name hname upper hupper
  -- the induction is on the path: after one step it stays at the root
  induction habove with
  | single hstep => exact hparent source hsource _ hstep
  | tail _ hstep ih =>
    rw [ih] at hstep
    exact hparent PlatformName.object hobject _ hstep

/-- What a type of all arrays can be assigned to is itself or the root of all classes. -/
theorem Assigns.mem_arraySupertypes (h : hierarchy.Assigns source target)
    (hroots : hierarchy.RootsOnTop) (hsource : source ∈ arraySupertypes) :
    target ∈ arraySupertypes := by
  have hobject : PlatformName.object ∈ arraySupertypes := by decide
  rcases h.eq_or_above (isClassName_of_mem_arraySupertypes hsource) with hsame | ⟨_, habove⟩
  · rw [← hsame]
    exact hsource
  · have htarget : target = PlatformName.object := habove.elim id (hroots.eq_object hsource)
    rw [htarget]
    exact hobject

/-- The rules can be chained. The induction is on the first of them, along the array suffixes. -/
theorem Assigns.trans {middle : String} (hroots : hierarchy.RootsOnTop)
    (hfirst : hierarchy.Assigns source middle) (hsecond : hierarchy.Assigns middle target) :
    hierarchy.Assigns source target := by
  induction hfirst generalizing target with
  | same => exact hsecond
  | primitiveElements hsource hmiddle _ =>
    rw [eq_of_elementName? hsource hmiddle]
    exact hsecond
  | @elements source middle sourceElement middleElement hsource hmiddle hsourcePlain hmiddlePlain
      helements ih =>
    by_cases hsame : middle = target
    · rw [← hsame]
      exact .elements hsource hmiddle hsourcePlain hmiddlePlain helements
    obtain ⟨_, ⟨element, targetElement, helement, htarget, hplain, hrest⟩
      | ⟨_, harray⟩ | ⟨hclass, _⟩⟩ := hsecond.cases_of_ne hsame
    · have helementSame : middleElement = element :=
        Option.some.inj (hmiddle.symm.trans helement)
      have htargetPlain := (Bool.or_eq_false_iff.1 hplain).2
      rw [← helementSame] at hrest
      exact .elements hsource htarget hsourcePlain htargetPlain (ih hrest)
    · exact .arrayType (isArrayName_of_elementName? hsource) harray
    · exact absurd hclass (not_isClassName_of_elementName? hmiddle)
  | arrayType hsource hmiddle =>
    exact .arrayType hsource (hsecond.mem_arraySupertypes hroots hmiddle)
  | @root source hsource =>
    have hobject : isClassName PlatformName.object = true := by decide
    have hmem : PlatformName.object ∈ arraySupertypes := by decide
    have htarget : target = PlatformName.object := by
      rcases hsecond.eq_or_above hobject with hsame | ⟨_, habove⟩
      · exact hsame.symm
      · exact habove.elim id (hroots.eq_object hmem)
    rw [htarget]
    exact .root hsource
  | @above source middle hsource hmiddle hbelow =>
    rcases hsecond.eq_or_above hmiddle with hsame | ⟨htarget, hobject | habove⟩
    · rw [← hsame]
      exact .above hsource hmiddle hbelow
    · rw [hobject]
      exact .root hsource
    · exact .above hsource htarget (hbelow.trans habove)

/-- Where the types of all arrays have nothing above them but the root of all classes, every
type can be assigned to itself, and assignments can be chained. -/
theorem isAssignable_preorder (hierarchy : Hierarchy) (hroots : hierarchy.RootsOnTop) :
    (∀ a, hierarchy.isAssignable a a = true)
      ∧ ∀ a b c, hierarchy.isAssignable a b = true → hierarchy.isAssignable b c = true →
        hierarchy.isAssignable a c = true := by
  refine ⟨hierarchy.isAssignable_refl, fun a b c hfirst hsecond => ?_⟩
  rw [isAssignable_iff_assigns] at hfirst hsecond ⊢
  exact hfirst.trans hroots hsecond

/-- Buttons and widgets above each other, and what arrays belong to in its place. -/
def widgets : Hierarchy :=
  ofList [("Button", ["Widget"]), ("Widget", ["Button", "java.lang.Cloneable"]),
    ("java.lang.Cloneable", ["java.lang.Object"])]

/-- Arrays of arrays of buttons are arrays of arrays of widgets, and thereby arrays of what can
be cloned. -/
theorem button_arrays_chained :
    widgets.RootsOnTop
      ∧ widgets.isAssignable "Button[][]" "Widget[][]" = true
      ∧ widgets.isAssignable "Widget[][]" "java.lang.Cloneable[]" = true
      ∧ widgets.isAssignable "Button[][]" "java.lang.Cloneable[]" = true := by
  have hroots : widgets.RootsOnTop := by
    unfold RootsOnTop
    decide +kernel
  have hfirst : widgets.isAssignable "Button[][]" "Widget[][]" = true := by
    decide +kernel
  have hsecond : widgets.isAssignable "Widget[][]" "java.lang.Cloneable[]" = true := by
    decide +kernel
  exact ⟨hroots, hfirst, hsecond, (isAssignable_preorder widgets hroots).2 _ _ _ hfirst hsecond⟩

end Hierarchy

end ClassAtlas
