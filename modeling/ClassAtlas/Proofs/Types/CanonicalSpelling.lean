import ClassAtlas.Proofs.Text.Splitting
import ClassAtlas.Proofs.Types.AliasDirections
import ClassAtlas.Proofs.Types.Spelling
import Mathlib.Data.List.DropRight

/-!
# Canonical spelling

Spelling a type name as the platform does takes the blanks around it away, puts what an
alias stands for in the place of the alias, once, and keeps array suffixes. What is spelled
so is not changed by doing it again, unless an alias leads to a name that is itself not
spelled so: to another alias, or to a name with blanks around it. Array suffixes can be put
on before or after, as long as no blanks stand between them and a name that is kept.
-/

namespace ClassAtlas

namespace Text

/-! ## Cutting blanks -/

/-- A string without the blanks it begins with. -/
def trimStart (text : String) : String :=
  String.ofList (text.toList.dropWhile isBlank)

theorem trimBlanks_eq_rdropWhile (text : List Char) :
    trimBlanks text = (text.dropWhile isBlank).rdropWhile isBlank := rfl

/-- Without the blanks in front, a trimmed text is a beginning. -/
theorem trimBlanks_isPrefix (text : List Char) : trimBlanks text <+: text.dropWhile isBlank :=
  List.rdropWhile_prefix isBlank _

/-- What is cut at both ends begins with no blank. -/
theorem dropWhile_trimBlanks (text : List Char) :
    (trimBlanks text).dropWhile isBlank = trimBlanks text := by
  rw [List.dropWhile_eq_self_iff]
  intro hlength
  rw [(trimBlanks_isPrefix text).getElem]
  exact List.dropWhile_get_zero_not _ _ _

/-- Trimming twice is trimming once. -/
theorem trimBlanks_trimBlanks (text : List Char) :
    trimBlanks (trimBlanks text) = trimBlanks text := by
  rw [trimBlanks_eq_rdropWhile (trimBlanks text), dropWhile_trimBlanks, trimBlanks_eq_rdropWhile,
    List.rdropWhile_idempotent]

/-- Brackets are no blanks, so they keep the blanks in front of them. -/
theorem trimBlanks_append_brackets (text : List Char) :
    trimBlanks (text ++ ['[', ']']) = text.dropWhile isBlank ++ ['[', ']'] := by
  have hfront : (text ++ ['[', ']']).dropWhile isBlank
      = text.dropWhile isBlank ++ ['[', ']'] := by
    have hbracket : ['[', ']'].dropWhile isBlank = ['[', ']'] := by decide
    rw [List.dropWhile_append, hbracket]
    split
    · next hnone => rw [List.isEmpty_iff.1 hnone, List.nil_append]
    · rfl
  rw [trimBlanks_eq_rdropWhile, hfront, List.append_cons]
  exact List.rdropWhile_concat_neg isBlank _ ']' (by decide)

theorem trim_trimStart (text : String) : trim (trimStart text) = trim text := by
  rw [trim, trimStart, String.toList_ofList, trimBlanks_eq_rdropWhile, List.dropWhile_idempotent,
    ← trimBlanks_eq_rdropWhile, trim]

theorem trimStart_trim (text : String) : trimStart (trim text) = trim text := by
  rw [trimStart, trim, String.toList_ofList, dropWhile_trimBlanks]

theorem trim_trim (text : String) : trim (trim text) = trim text := by
  rw [trim, trim, String.toList_ofList, trimBlanks_trimBlanks]

/-- Behind brackets there is nothing to trim, so only the blanks in front of the name go. -/
theorem trim_append_brackets (text : String) : trim (text ++ "[]") = trimStart text ++ "[]" := by
  apply String.toList_inj.1
  rw [String.toList_append, trimStart, String.toList_ofList, trim, String.toList_ofList,
    String.toList_append]
  exact trimBlanks_append_brackets text.toList

theorem length_trim_le (text : String) : (trim text).length ≤ text.length := by
  rw [trim, String.length_ofList, ← String.length_toList]
  exact (trimBlanks_isPrefix _).length_le.trans (List.length_dropWhile_le _ _)

end Text

open Text

variable {name element : String}

/-- Brackets behind a name make an array of it. -/
theorem elementName?_append_brackets (name : String) : elementName? (name ++ "[]") = some name :=
  (dropEnding?_eq_some_iff "[]" (name ++ "[]") name).2 rfl

/-- The element of an array is written shorter than the array. -/
theorem length_lt_of_elementName?_trim (h : elementName? (trim name) = some element) :
    element.length < name.length := by
  have hbrackets : "[]".length = 2 := rfl
  have htrim : trim name = element ++ "[]" := (dropEnding?_eq_some_iff "[]" _ _).1 h
  have hlength := length_trim_le name
  rw [htrim, String.length_append] at hlength
  omega

/-! ## Taking all suffixes off -/

/-- A function of type names, with a limit, that takes suffixes off: `base` tells what becomes of
the element, and `step` what a suffix adds to that. -/
structure TakesSuffixesOff {α : Type} (read : Nat → String → α) (base : String → α) (step : α → α) :
    Prop where
  /-- A name without a suffix is an element. -/
  of_none : ∀ {name : String}, elementName? (trim name) = none →
    ∀ limit, read limit name = base (trim name)
  /-- A suffix is taken off at the cost of one. -/
  of_some : ∀ {name element : String}, elementName? (trim name) = some element →
    ∀ limit, read (limit + 1) name = step (read limit element)

namespace TakesSuffixesOff

variable {α : Type} {read : Nat → String → α} {base : String → α} {step : α → α}

/-- A name has fewer suffixes than characters, so a limit of that many is no limit. -/
theorem eq_of_length_le (h : TakesSuffixesOff read base step) {limit other : Nat}
    (hlimit : name.length ≤ limit) (hother : name.length ≤ other) :
    read limit name = read other name := by
  induction limit generalizing name other with
  | zero =>
    cases helement : elementName? (trim name) with
    | none => rw [h.of_none helement, h.of_none helement]
    | some element => exact absurd (length_lt_of_elementName?_trim helement) (by omega)
  | succ limit ih =>
    cases helement : elementName? (trim name) with
    | none => rw [h.of_none helement, h.of_none helement]
    | some element =>
      have hshorter := length_lt_of_elementName?_trim helement
      obtain ⟨smaller, rfl⟩ := Nat.exists_eq_add_one_of_ne_zero (by omega : other ≠ 0)
      have hsame : read limit element = read smaller element := ih (by omega) (by omega)
      rw [h.of_some helement, h.of_some helement, hsame]

/-- A limit of the length of the name is enough to take a suffix off, and to go on with the element
under its own length. -/
theorem length_of_some (h : TakesSuffixesOff read base step)
    (helement : elementName? (trim name) = some element) :
    read name.length name = step (read element.length element) := by
  have hshorter := length_lt_of_elementName?_trim helement
  obtain ⟨limit, hlimit⟩ := Nat.exists_eq_add_one_of_ne_zero (Nat.ne_zero_of_lt hshorter)
  have hsame : read limit element = read element.length element :=
    h.eq_of_length_le (by omega) (Nat.le_refl _)
  rw [hlimit, h.of_some helement, hsame]

end TakesSuffixesOff

/-- The innermost element is found by taking suffixes off. -/
theorem elementWithin_takesSuffixesOff : TakesSuffixesOff elementWithin id id where
  of_none := by
    intro name hnone limit
    cases limit with
    | zero => rfl
    | succ limit => rw [elementWithin, hnone, id]
  of_some := by
    intro name element hsome limit
    rw [elementWithin, hsome, id]

namespace AliasRegistry

variable {registry : AliasRegistry}

/-- A replacement is found by taking suffixes off and put back behind it. -/
theorem replacement?_takesSuffixesOff (registry : AliasRegistry) :
    TakesSuffixesOff registry.replacement? registry.standsFor? (Option.map (· ++ "[]")) where
  of_none := by
    intro name hnone limit
    cases limit with
    | zero => rw [replacement?_zero, hnone]
    | succ limit => rw [replacement?_succ, hnone]
  of_some := by
    intro name element hsome limit
    rw [replacement?_succ, hsome]

/-- The spelling of a type name in which an alias is replaced, if there is one. -/
def replaced? (registry : AliasRegistry) (name : String) : Option String :=
  registry.replacement? name.length name

theorem normalize_eq_getD (registry : AliasRegistry) (name : String) :
    registry.normalize name = (registry.replaced? name).getD (trim name) := rfl

/-- A name that is no array is replaced as it stands. -/
theorem replaced?_of_elementName?_none (registry : AliasRegistry)
    (h : elementName? (trim name) = none) :
    registry.replaced? name = registry.standsFor? (trim name) :=
  registry.replacement?_takesSuffixesOff.of_none h _

/-- An array is replaced through its element. -/
theorem replaced?_of_elementName? (registry : AliasRegistry)
    (h : elementName? (trim name) = some element) :
    registry.replaced? name = (registry.replaced? element).map (· ++ "[]") :=
  registry.replacement?_takesSuffixesOff.length_of_some h

/-- Blanks around a name make no difference. -/
theorem replaced?_congr {first second : String} (registry : AliasRegistry)
    (h : trim first = trim second) : registry.replaced? first = registry.replaced? second := by
  have hsame : elementName? (trim first) = elementName? (trim second) := by rw [h]
  cases hfirst : elementName? (trim first) with
  | none =>
    rw [registry.replaced?_of_elementName?_none hfirst, h,
      registry.replaced?_of_elementName?_none (hsame.symm.trans hfirst)]
  | some element =>
    rw [registry.replaced?_of_elementName? hfirst,
      registry.replaced?_of_elementName? (hsame.symm.trans hfirst)]

/-- Brackets stay behind what a name is replaced by. -/
theorem replaced?_append_brackets (registry : AliasRegistry) (name : String) :
    registry.replaced? (name ++ "[]") = (registry.replaced? name).map (· ++ "[]") := by
  have helement : elementName? (trim (name ++ "[]")) = some (trimStart name) := by
    rw [trim_append_brackets, elementName?_append_brackets]
  rw [registry.replaced?_of_elementName? helement, registry.replaced?_congr (trim_trimStart name)]

/-! ## Suffixes are kept -/

/-- What becomes of a name with a suffix: only what is put in the place of an alias loses the
blanks in front of the suffix. -/
theorem normalize_append_brackets (registry : AliasRegistry) (name : String) :
    registry.normalize (name ++ "[]")
      = ((registry.replaced? name).getD (trimStart name)) ++ "[]" := by
  rw [normalize_eq_getD, replaced?_append_brackets, trim_append_brackets]
  cases registry.replaced? name <;> rfl

/-- A suffix behind a name that is spelled as the platform does changes nothing else. -/
theorem normalize_append_brackets_of_eq (h : registry.normalize name = name) :
    registry.normalize (name ++ "[]") = name ++ "[]" := by
  rw [normalize_append_brackets]
  rw [normalize_eq_getD] at h
  cases hreplaced : registry.replaced? name with
  | some spelled =>
    rw [hreplaced] at h
    rw [Option.getD_some, show spelled = name from h]
  | none =>
    rw [hreplaced] at h
    have htrim : trim name = name := h
    rw [Option.getD_none, ← htrim, trimStart_trim, htrim]

/-- A name with a number of array suffixes. -/
def withSuffixes (name : String) : Nat → String
  | 0 => name
  | count + 1 => withSuffixes name count ++ "[]"

/-- A name that stays as it is does so with any number of suffixes. -/
theorem normalize_withSuffixes_of_eq (h : registry.normalize name = name) (count : Nat) :
    registry.normalize (withSuffixes name count) = withSuffixes name count := by
  induction count with
  | zero => exact h
  | succ count ih => exact normalize_append_brackets_of_eq ih

/-- What the element of a name stands for takes its place, in front of all suffixes. The
induction is on the length of the name. -/
theorem exists_replaced?_eq_map (registry : AliasRegistry) (name : String) :
    ∃ count, registry.replaced? name
      = (registry.standsFor? (writtenElement name)).map (withSuffixes · count) := by
  induction hlength : name.length using Nat.strong_induction_on generalizing name with
  | _ length ih =>
    cases helement : elementName? (trim name) with
    | none =>
      have hwritten : writtenElement name = trim name :=
        elementWithin_takesSuffixesOff.of_none helement _
      refine ⟨0, ?_⟩
      rw [registry.replaced?_of_elementName?_none helement, hwritten]
      exact Option.map_id'.symm
    | some element =>
      have hwritten : writtenElement name = writtenElement element :=
        elementWithin_takesSuffixesOff.length_of_some helement
      have hshorter := length_lt_of_elementName?_trim helement
      obtain ⟨count, hcount⟩ := ih element.length (by omega) element rfl
      refine ⟨count + 1, ?_⟩
      rw [registry.replaced?_of_elementName? helement, hcount, hwritten, Option.map_map]
      rfl

/-! ## Spelling twice -/

/-- The element of a name is no alias of another name, or it is one of a name that is spelled as
the platform does. -/
def LeadsToPlatform (registry : AliasRegistry) (name : String) : Prop :=
  ∀ target, registry.standsFor? (writtenElement name) = some target →
    registry.normalize target = target

/-- A name that is kept is the same after its blanks are gone. -/
theorem normalize_normalize_of_replaced?_none (h : registry.replaced? name = none) :
    registry.normalize (registry.normalize name) = registry.normalize name := by
  have hname : registry.normalize name = trim name := by
    rw [normalize_eq_getD, h, Option.getD_none]
  have htrimmed : registry.replaced? (trim name) = none := by
    rw [registry.replaced?_congr (trim_trim name), h]
  rw [hname, normalize_eq_getD, htrimmed, Option.getD_none, trim_trim]

/-- A name that leads to a platform type is brought to its final spelling at once. -/
theorem LeadsToPlatform.normalize_normalize (h : registry.LeadsToPlatform name) :
    registry.normalize (registry.normalize name) = registry.normalize name := by
  obtain ⟨count, hcount⟩ := registry.exists_replaced?_eq_map name
  cases hstands : registry.standsFor? (writtenElement name) with
  | none =>
    rw [hstands] at hcount
    exact normalize_normalize_of_replaced?_none hcount
  | some target =>
    rw [hstands] at hcount
    have hname : registry.normalize name = withSuffixes target count := by
      rw [normalize_eq_getD, hcount]
      rfl
    rw [hname, normalize_withSuffixes_of_eq (h target hstands)]

/-- Without suffixes, what a name is replaced by is all that is spelled again. -/
theorem leadsToPlatform_of_normalize_normalize (helement : elementName? (trim name) = none)
    (h : registry.normalize (registry.normalize name) = registry.normalize name) :
    registry.LeadsToPlatform name := by
  intro target htarget
  have hwritten : writtenElement name = trim name :=
    elementWithin_takesSuffixesOff.of_none helement _
  have hname : registry.normalize name = target := by
    rw [normalize_eq_getD, registry.replaced?_of_elementName?_none helement, ← hwritten, htarget,
      Option.getD_some]
  rw [hname] at h
  exact h

/-- Putting brackets behind a name commutes with normalising it, if the name has no blanks behind it
or is replaced. -/
theorem normalize_append_brackets_comm
    (h : trimStart name = trim name ∨ registry.standsFor? (writtenElement name) ≠ none) :
    registry.normalize (name ++ "[]") = registry.normalize name ++ "[]" := by
  rw [normalize_append_brackets, normalize_eq_getD]
  rcases h with htight | halias
  · rw [htight]
  · obtain ⟨count, hcount⟩ := registry.exists_replaced?_eq_map name
    obtain ⟨target, htarget⟩ := Option.ne_none_iff_exists'.1 halias
    rw [hcount, htarget]
    rfl

/-- In every registry that calls lead to, spelling a name twice is spelling it once if the alias in
the name, should there be one, leads to a name that is spelled as the platform does, and for names
without array suffixes only then; and an array suffix can be put on before or after, if no blanks
follow the name or if an alias is replaced. -/
theorem platform_spelling_canonical (configured : List (String × String)) (calls : List Call)
    (name : String) :
    ((ofCalls configured calls).LeadsToPlatform name →
      (ofCalls configured calls).normalize ((ofCalls configured calls).normalize name)
        = (ofCalls configured calls).normalize name)
    ∧ (elementName? (trim name) = none →
      (ofCalls configured calls).normalize ((ofCalls configured calls).normalize name)
        = (ofCalls configured calls).normalize name →
      (ofCalls configured calls).LeadsToPlatform name)
    ∧ (trimStart name = trim name
        ∨ (ofCalls configured calls).standsFor? (writtenElement name) ≠ none →
      (ofCalls configured calls).normalize (name ++ "[]")
        = (ofCalls configured calls).normalize name ++ "[]") :=
  ⟨LeadsToPlatform.normalize_normalize, leadsToPlatform_of_normalize_normalize,
    normalize_append_brackets_comm⟩

/-- An alias of an array type, written with blanks and a suffix of its own. -/
theorem grid_spelling_canonical :
    (ofCalls [("Grid", "com.acme.Cell[]")] [.register "Cell" "com.acme.Cell"]).normalize " Grid [] "
        = "com.acme.Cell[][]"
      ∧ (ofCalls [("Grid", "com.acme.Cell[]")] [.register "Cell" "com.acme.Cell"]).normalize
          ((ofCalls [("Grid", "com.acme.Cell[]")] [.register "Cell" "com.acme.Cell"]).normalize
            " Grid [] ")
        = (ofCalls [("Grid", "com.acme.Cell[]")] [.register "Cell" "com.acme.Cell"]).normalize
          " Grid [] "
      ∧ (ofCalls [("Grid", "com.acme.Cell[]")] [.register "Cell" "com.acme.Cell"]).LeadsToPlatform
        " Grid "
      ∧ (ofCalls [("Grid", "com.acme.Cell[]")] [.register "Cell" "com.acme.Cell"]).normalize
          (" Grid [] " ++ "[]")
        = (ofCalls [("Grid", "com.acme.Cell[]")] [.register "Cell" "com.acme.Cell"]).normalize
          " Grid [] " ++ "[]" := by
  have hstands : (ofCalls [("Grid", "com.acme.Cell[]")]
      [.register "Cell" "com.acme.Cell"]).standsFor? (writtenElement " Grid [] ")
        = some "com.acme.Cell[]" := by
    decide +kernel
  refine ⟨by decide +kernel, ?_, ?_, ?_⟩
  · refine (platform_spelling_canonical _ _ _).1 fun target htarget => ?_
    rw [hstands] at htarget
    obtain rfl := Option.some.inj htarget
    decide +kernel
  · exact (platform_spelling_canonical _ _ _).2.1 (by decide +kernel) (by decide +kernel)
  · refine (platform_spelling_canonical _ _ _).2.2 (.inr ?_)
    rw [hstands]
    exact Option.some_ne_none _

/-- An alias is replaced once: where it leads to another alias, spelling again goes on to what
that one stands for. Blanks behind a name that is kept stay in front of an array suffix. -/
theorem spelling_not_canonical :
    (ofCalls [("Num", "Number")] []).normalize "Num" = "Number"
      ∧ (ofCalls [("Num", "Number")] []).normalize "Number" = "java.lang.Number"
      ∧ (ofCalls [("Num", "Number")] []).normalize
          ((ofCalls [("Num", "Number")] []).normalize "Num")
        ≠ (ofCalls [("Num", "Number")] []).normalize "Num"
      ∧ (ofCalls [] []).normalize ("Foo " ++ "[]") ≠ (ofCalls [] []).normalize "Foo " ++ "[]" := by
  have honce : (ofCalls [("Num", "Number")] []).normalize "Num" = "Number" := by
    decide +kernel
  have htwice : (ofCalls [("Num", "Number")] []).normalize "Number" = "java.lang.Number" := by
    decide +kernel
  refine ⟨honce, htwice, ?_, by decide +kernel⟩
  rw [honce, htwice]
  decide

end AliasRegistry

end ClassAtlas
