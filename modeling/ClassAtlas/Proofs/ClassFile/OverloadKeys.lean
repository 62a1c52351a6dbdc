import ClassAtlas.ClassFile.Description
import ClassAtlas.Proofs.Text.Splitting
import Mathlib.Logic.Relation

/-!
# Keys of overloads

The key of a method is its name and the spellings of its parameter types. Other
overloads have the same key when a class or a method is named so that its spelling
passes for another one: a class that is called like a primitive type or an array, one
with a comma or nothing in its name, one with a point where another has a slash, a
method with a parenthesis in its name. There is no further way. With names that are
plain in this respect, a key tells its overload.
-/

namespace ClassAtlas

open Text

/-! ## Spellings -/

namespace Text

theorem replaceMark_append (mark replacement : Char) (first second : String) :
    replaceMark mark replacement (first ++ second)
      = replaceMark mark replacement first ++ replaceMark mark replacement second := by
  unfold replaceMark
  rw [← String.toList_inj]
  simp

theorem replaceMark_of_notMem {mark replacement : Char} {text : String} (h : mark ∉ text.toList) :
    replaceMark mark replacement text = text := by
  unfold replaceMark
  have hsame : ∀ c ∈ text.toList, (if c = mark then replacement else c) = c := by
    intro c hc
    refine if_neg ?_
    rintro rfl
    exact h hc
  rw [List.map_congr_left hsame, List.map_id', String.ofList_toList]

/-- A qualified name is its own qualified form. -/
theorem internalToQualified_self (internal : String) :
    internalToQualified (internalToQualified internal) = internalToQualified internal :=
  replaceMark_of_notMem (notMem_replaceMark (by decide) internal)

/-- A mark in the name of a class is spelled as it is. -/
theorem internalToQualified_around (mark : String) (hmark : internalToQualified mark = mark)
    (first second : String) : internalToQualified (first ++ mark ++ second)
      = internalToQualified first ++ mark ++ internalToQualified second := by
  unfold internalToQualified at hmark ⊢
  rw [replaceMark_append, replaceMark_append, hmark]

variable {separator first second : String} {others front back : List String}

theorem joined_cons (h : others ≠ []) :
    joined separator (first :: others) = first ++ separator ++ joined separator others := by
  obtain ⟨second, rest, rfl⟩ := List.exists_cons_of_ne_nil h
  rw [← String.toList_inj]
  simp [joined, String.toList_intercalate]

/-- What stands in front of the first part stands in front of the whole. -/
theorem joined_append_cons :
    joined separator ((first ++ second) :: others)
      = first ++ joined separator (second :: others) := by
  cases others with
  | nil => rfl
  | cons third others =>
    rw [joined_cons (List.cons_ne_nil third others), joined_cons (List.cons_ne_nil third others)]
    simp only [String.append_assoc]

/-- A character that is in no part and not in the separator is not in the whole. -/
theorem notMem_joined {c : Char} {parts : List String} (hseparator : c ∉ separator.toList)
    (h : ∀ part ∈ parts, c ∉ part.toList) : c ∉ (joined separator parts).toList := by
  induction parts with
  | nil => exact List.not_mem_nil
  | cons part parts ih =>
    obtain ⟨hpart, hparts⟩ := List.forall_mem_cons.1 h
    by_cases hnil : parts = []
    · rw [hnil]
      exact hpart
    · rw [joined_cons hnil, String.toList_append, String.toList_append, List.mem_append,
        List.mem_append]
      exact not_or.2 ⟨not_or.2 ⟨hpart, hseparator⟩, ih hparts⟩

/-- A text with the separator in it passes for two. -/
theorem joined_two :
    joined separator (front ++ (first ++ separator ++ second) :: back)
      = joined separator (front ++ first :: second :: back) := by
  induction front with
  | nil =>
    rw [List.nil_append, List.nil_append, joined_append_cons,
      joined_cons (List.cons_ne_nil second back)]
  | cons other front ih =>
    rw [List.cons_append, List.cons_append, joined_cons (by simp), joined_cons (by simp), ih]

end Text

/-- A character in the spelling of a type comes from the name of its class, unless primitive types
or arrays are spelled with it. -/
theorem FieldType.notMem_qualifiedName {c : Char} {type : FieldType}
    (hprimitive : ∀ kind : Primitive, c ∉ kind.name.toList) (harray : c ∉ "[]".toList)
    (h : ∀ internal, type.innermost = .object internal →
      c ∉ (internalToQualified internal).toList) : c ∉ type.qualifiedName.toList := by
  induction type with
  | primitive kind => exact hprimitive kind
  | object internal => exact h internal rfl
  | array type ih =>
    rw [qualifiedName, String.toList_append, List.mem_append]
    exact not_or.2 ⟨ih h, harray⟩

/-! ## Imitations -/

/-- What tells the methods of a class apart. -/
structure Overload where
  /-- The name of the method. -/
  name : String
  /-- The types of its parameters. -/
  parameters : List FieldType
  deriving DecidableEq, Repr

/-- The overload of a method. -/
def Method.overload (method : Method) : Overload :=
  ⟨method.name, method.type.parameters⟩

/-- The text that is to tell an overload. -/
def Overload.key (overload : Overload) : String :=
  overload.name ++ "(" ++ joined ", " (overload.parameters.map FieldType.qualifiedName) ++ ")"

theorem Method.key_eq (method : Method) : method.key = method.overload.key :=
  rfl

/-- A type is spelled like another because of the name of a class. -/
inductive FieldType.Imitates : FieldType → FieldType → Prop where
  /-- A point stands where a slash is. -/
  | dotted {first second : String}
      (h : internalToQualified first = internalToQualified second) :
      Imitates (.object first) (.object second)
  /-- The class is called like a primitive type. -/
  | primitive (kind : Primitive) : Imitates (.object kind.name) (.primitive kind)
  /-- The class is called like an array. -/
  | array (element : String) : Imitates (.object (element ++ "[]")) (.array (.object element))
  /-- The same holds for arrays. -/
  | element {first second : FieldType} (h : Imitates first second) :
      Imitates (.array first) (.array second)

/-- An overload is spelled like another because of the name of a class. -/
inductive Overload.Imitates : Overload → Overload → Prop where
  /-- A parameter is spelled like another. -/
  | parameter {name : String} {front back : List FieldType} {first second : FieldType}
      (h : first.Imitates second) :
      Imitates ⟨name, front ++ first :: back⟩ ⟨name, front ++ second :: back⟩
  /-- A parameter is spelled like two. -/
  | two (name : String) (front back : List FieldType) (first second : String) :
      Imitates ⟨name, front ++ .object (first ++ ", " ++ second) :: back⟩
        ⟨name, front ++ .object first :: .object second :: back⟩
  /-- A parameter is spelled like none. -/
  | none (name : String) : Imitates ⟨name, [.object ""]⟩ ⟨name, []⟩
  /-- A parameter is spelled like the end of a longer name and a parameter. -/
  | longer (name first second : String) (back : List FieldType) :
      Imitates ⟨name, .object (first ++ "(" ++ second) :: back⟩
        ⟨name ++ "(" ++ internalToQualified first, .object second :: back⟩

/-- One overload comes from the other by imitations, in any order and direction. -/
def Overload.LooksLike : Overload → Overload → Prop :=
  Relation.EqvGen Overload.Imitates

/-- A type that imitates another one is spelled like it. -/
theorem FieldType.Imitates.qualifiedName_eq {first second : FieldType} (h : first.Imitates second) :
    first.qualifiedName = second.qualifiedName := by
  induction h with
  | dotted h => exact h
  | primitive kind => cases kind <;> decide
  | array element =>
    exact replaceMark_append '/' '.' element "[]"
  | element _ ih => exact congrArg (· ++ "[]") ih

/-- A step does not change the key. -/
theorem Overload.Imitates.key_eq {first second : Overload} (h : first.Imitates second) :
    first.key = second.key := by
  cases h with
  | parameter h => simp only [key, List.map_append, List.map_cons, h.qualifiedName_eq]
  | two name front back first second =>
    simp only [key, List.map_append, List.map_cons, FieldType.qualifiedName,
      internalToQualified_around ", " rfl, joined_two]
  | none name => rfl
  | longer name first second back =>
    simp only [key, List.map_cons, FieldType.qualifiedName, internalToQualified_around "(" rfl,
      joined_append_cons]
    simp only [String.append_assoc]

/-- Overloads that look alike have the same key. -/
theorem Overload.LooksLike.key_eq {first second : Overload} (h : first.LooksLike second) :
    first.key = second.key := by
  induction h with
  | rel first second h => exact h.key_eq
  | refl first => rfl
  | symm first second _ ih => exact ih.symm
  | trans first second third _ _ ih ih' => exact ih.trans ih'

/-! ## All imitations -/

/-- Chains of steps are carried over by a map that carries over steps. -/
theorem eqvGen_map {α β : Type} {step : α → α → Prop} {step' : β → β → Prop} (view : α → β)
    (hview : ∀ first second, step first second → step' (view first) (view second))
    {first second : α} (h : Relation.EqvGen step first second) :
    Relation.EqvGen step' (view first) (view second) := by
  induction h with
  | rel first second h => exact .rel _ _ (hview _ _ h)
  | refl first => exact .refl _
  | symm first second _ ih => exact .symm _ _ ih
  | trans first second third _ _ ih ih' => exact .trans _ _ _ ih ih'

/-- The class that is called like a type imitates the type. -/
theorem FieldType.eqvGen_object_qualifiedName (type : FieldType) :
    Relation.EqvGen FieldType.Imitates (.object type.qualifiedName) type := by
  induction type with
  | primitive kind => exact .rel _ _ (.primitive kind)
  | object internal => exact .rel _ _ (.dotted (internalToQualified_self internal))
  | array type ih =>
    have helement : Relation.EqvGen FieldType.Imitates (.array (.object type.qualifiedName))
        (.array type) := eqvGen_map FieldType.array (fun _ _ => .element) ih
    exact .trans _ _ _ (.rel _ _ (.array type.qualifiedName)) helement

namespace Overload

/-- All parameters can be classes. The induction carries what stands in front of them. -/
theorem looksLike_objects (name : String) (front parameters : List FieldType) :
    LooksLike ⟨name, front ++ parameters.map fun type => .object type.qualifiedName⟩
      ⟨name, front ++ parameters⟩ := by
  induction parameters generalizing front with
  | nil => exact .refl _
  | cons type parameters ih =>
    have hfirst : LooksLike
        ⟨name, front ++ .object type.qualifiedName
          :: parameters.map fun type => .object type.qualifiedName⟩
        ⟨name, front ++ type :: parameters.map fun type => .object type.qualifiedName⟩ :=
      eqvGen_map (fun first => Overload.mk name (front ++ first :: _)) (fun _ _ => .parameter)
        type.eqvGen_object_qualifiedName
    have hothers := ih (front ++ [type])
    rw [List.append_assoc, List.append_assoc] at hothers
    exact .trans _ _ _ hfirst hothers

/-- Classes, one at least, can be one class. -/
theorem looksLike_joined (name : String) (front : List FieldType) (first : String)
    (others : List String) :
    LooksLike ⟨name, front ++ [.object (joined ", " (first :: others))]⟩
      ⟨name, front ++ (first :: others).map .object⟩ := by
  induction others generalizing front first with
  | nil => exact .refl _
  | cons second others ih =>
    have hfirst := Imitates.two name front [] first (joined ", " (second :: others))
    rw [← joined_cons (List.cons_ne_nil second others)] at hfirst
    have hothers := ih (front ++ [.object first]) second
    rw [List.append_assoc, List.append_assoc] at hothers
    exact .trans _ _ _ (.rel _ _ hfirst) hothers

/-- The spellings of the parameters, which stand between the parentheses of the key. -/
def spelling (overload : Overload) : String :=
  joined ", " (overload.parameters.map FieldType.qualifiedName)

/-- Every overload looks like one with a single class as its parameter. -/
theorem looksLike_single (overload : Overload) :
    LooksLike ⟨overload.name, [.object overload.spelling]⟩ overload := by
  obtain ⟨name, parameters⟩ := overload
  cases parameters with
  | nil => exact .rel _ _ (.none name)
  | cons type parameters =>
    have hjoined := looksLike_joined name [] type.qualifiedName
      (parameters.map FieldType.qualifiedName)
    have hobjects := looksLike_objects name [] (type :: parameters)
    rw [List.map_cons, List.map_map] at hjoined
    exact .trans _ _ _ hjoined hobjects

/-- A longer name takes its end from the class that is the parameter of the other. -/
theorem looksLike_of_longer_name {name text text' : String} {more : List Char}
    (htext : '/' ∉ text.toList) (h : '(' :: text.toList = more ++ '(' :: text'.toList) :
    LooksLike ⟨name, [.object text]⟩ ⟨name ++ String.ofList more, [.object text']⟩ := by
  cases more with
  | nil =>
    have hsame : text = text' := String.toList_inj.1 (List.cons.inj h).2
    rw [hsame, String.ofList_nil, String.append_empty]
    exact .refl _
  | cons c more =>
    obtain ⟨rfl, hsplit⟩ := List.cons.inj h
    have hmore : '/' ∉ more := fun hslash => htext (hsplit ▸ List.mem_append_left _ hslash)
    have hspelled : internalToQualified (String.ofList more) = String.ofList more :=
      replaceMark_of_notMem (by rwa [String.toList_ofList])
    have hwritten : String.ofList more ++ "(" ++ text' = text := by
      rw [← String.toList_inj, hsplit]
      simp
    have hname : name ++ "(" ++ String.ofList more = name ++ String.ofList ('(' :: more) := by
      rw [← String.toList_inj]
      simp
    have hstep := Imitates.longer name (String.ofList more) text' []
    rw [hwritten, hspelled, hname] at hstep
    exact .rel _ _ hstep

/-- Parameter types are spelled without slashes. -/
theorem slash_notMem_spelling (overload : Overload) : '/' ∉ overload.spelling.toList := by
  refine notMem_joined (by decide) fun part hpart => ?_
  obtain ⟨type, _, rfl⟩ := List.mem_map.1 hpart
  refine FieldType.notMem_qualifiedName (fun kind => ?_) (by decide) fun internal _ => ?_
  · cases kind <;> decide
  · exact notMem_replaceMark (by decide) internal

/-- A key is the name and, between parentheses, the spelling of the parameter types. -/
theorem toList_key (overload : Overload) :
    overload.key.toList = overload.name.toList ++ '(' :: overload.spelling.toList ++ [')'] := by
  simp [key, spelling]

/-- Overloads have the same key exactly when one looks like the other. -/
theorem key_eq_iff (first second : Overload) : first.key = second.key ↔ first.LooksLike second := by
  constructor
  · intro h
    have htexts : first.name.toList ++ '(' :: first.spelling.toList
        = second.name.toList ++ '(' :: second.spelling.toList := by
      rw [← String.toList_inj, toList_key, toList_key] at h
      exact List.append_cancel_right h
    have hsingle : LooksLike ⟨first.name, [.object first.spelling]⟩
        ⟨second.name, [.object second.spelling]⟩ := by
      -- one name begins the other, and what is left of it begins the class of the first
      obtain ⟨more, hname, hmore⟩ | ⟨more, hname, hmore⟩ := List.append_eq_append_iff.1 htexts
      · rw [← String.ofList_toList (s := second.name), hname, String.ofList_append,
          String.ofList_toList]
        exact looksLike_of_longer_name (slash_notMem_spelling first) hmore
      · rw [← String.ofList_toList (s := first.name), hname, String.ofList_append,
          String.ofList_toList]
        exact .symm _ _ (looksLike_of_longer_name (slash_notMem_spelling second) hmore)
    exact .trans _ _ _ (.symm _ _ first.looksLike_single)
      (.trans _ _ _ hsingle second.looksLike_single)
  · exact LooksLike.key_eq

end Overload

/-! ## Plain names -/

/-- Whether the internal name of a class does not pass for anything else. -/
def isPlainName (internal : String) : Bool :=
  internal ≠ "" && !isPrimitiveName internal
    && internal.toList.all fun c => c ≠ '.' && c ≠ ',' && c ≠ '['

/-- Whether a type is primitive, a class of a plain name or arrays of those. -/
def FieldType.isPlain : FieldType → Bool
  | primitive _ => true
  | object internal => isPlainName internal
  | array element => element.isPlain

/-- Whether no name in an overload passes for anything else. -/
def Overload.isPlain (overload : Overload) : Bool :=
  !overload.name.toList.contains '(' && overload.parameters.all FieldType.isPlain

theorem Text.mem_replaceMark {mark replacement c : Char} {text : String}
    (h : c ∈ (replaceMark mark replacement text).toList) : c = replacement ∨ c ∈ text.toList := by
  rw [replaceMark, String.toList_ofList, List.mem_map] at h
  obtain ⟨other, hother, hc⟩ := h
  split at hc
  · exact .inl hc.symm
  · exact .inr (hc ▸ hother)

/-- A plain class name is spelled without commas and brackets. -/
theorem notMem_internalToQualified {internal : String} {c : Char} (h : isPlainName internal = true)
    (hc : c = ',' ∨ c = '[') : c ∉ (internalToQualified internal).toList := by
  simp only [isPlainName, Bool.and_eq_true, List.all_eq_true, decide_eq_true_eq] at h
  intro hmem
  obtain hpoint | hmem := mem_replaceMark hmem
  · rcases hc with rfl | rfl <;> cases hpoint
  · have hnot := h.2 c hmem
    rcases hc with rfl | rfl
    · exact hnot.1.2 rfl
    · exact hnot.2 rfl

/-- A plain name is found again in its spelling. -/
theorem replaceMark_internalToQualified {internal : String} (h : isPlainName internal = true) :
    replaceMark '.' '/' (internalToQualified internal) = internal := by
  simp only [isPlainName, Bool.and_eq_true, List.all_eq_true, decide_eq_true_eq] at h
  exact replaceMark_replaceMark fun hpoint => (h.2 '.' hpoint).1.1 rfl

namespace FieldType

variable {first second type : FieldType}

theorem qualifiedName_ne_empty (h : type.isPlain = true) : type.qualifiedName ≠ "" := by
  cases type with
  | primitive kind => cases kind <;> decide
  | object internal =>
    intro hempty
    have hback := replaceMark_internalToQualified h
    have hinternal : internal = "" := by
      rw [← hback, show internalToQualified internal = "" from hempty]
      rfl
    rw [hinternal] at h
    exact absurd h (by decide)
  | array element => simp [qualifiedName]

/-- A plain type is spelled without commas. -/
theorem comma_notMem_qualifiedName (h : type.isPlain = true) : ',' ∉ type.qualifiedName.toList := by
  refine notMem_qualifiedName (fun kind => ?_) (by decide) fun internal hinner => ?_
  · cases kind <;> decide
  · refine notMem_internalToQualified ?_ (.inl rfl)
    induction type with
    | primitive kind => cases hinner
    | object other =>
      cases hinner
      exact h
    | array element ih => exact ih h hinner

theorem bracket_notMem_primitive (kind : Primitive) : '[' ∉ kind.name.toList := by
  cases kind <;> decide

/-- A plain name is not spelled like a primitive type. -/
theorem name_ne_internalToQualified {kind : Primitive} {internal : String}
    (h : isPlainName internal = true) : kind.name ≠ internalToQualified internal := by
  intro hspelled
  have hback : internal = kind.name := by
    rw [← replaceMark_internalToQualified h, ← hspelled]
    cases kind <;> decide
  rw [hback] at h
  cases kind <;> exact absurd h (by decide)

/-- The spelling of an array is not that of anything without a bracket. -/
theorem ne_qualifiedName_array {text : String} {element : FieldType} (h : '[' ∉ text.toList) :
    text ≠ (array element).qualifiedName := by
  rintro rfl
  exact h (by simp [qualifiedName])

/-- Plain types are told by their spelling. -/
theorem eq_of_qualifiedName_eq (hfirst : first.isPlain = true) (hsecond : second.isPlain = true)
    (h : first.qualifiedName = second.qualifiedName) : first = second := by
  induction first generalizing second with
  | primitive kind =>
    cases second with
    | primitive other =>
      have hkind : kind = other := by
        revert h
        cases kind <;> cases other <;> decide
      rw [hkind]
    | object internal => exact absurd h (name_ne_internalToQualified hsecond)
    | array element => exact absurd h (ne_qualifiedName_array (bracket_notMem_primitive kind))
  | object internal =>
    cases second with
    | primitive other => exact absurd h.symm (name_ne_internalToQualified hfirst)
    | object other =>
      have hname : internalToQualified internal = internalToQualified other := h
      rw [← replaceMark_internalToQualified hfirst, hname, replaceMark_internalToQualified hsecond]
    | array element =>
      exact absurd h (ne_qualifiedName_array (notMem_internalToQualified hfirst (.inr rfl)))
  | array type ih =>
    cases second with
    | primitive other =>
      exact absurd h.symm (ne_qualifiedName_array (bracket_notMem_primitive other))
    | object other =>
      exact absurd h.symm (ne_qualifiedName_array (notMem_internalToQualified hsecond (.inr rfl)))
    | array other =>
      have hinner : type.qualifiedName = other.qualifiedName := (String.append_left_inj "[]").1 h
      have hsame : type = other := ih hfirst hsecond hinner
      rw [hsame]

end FieldType

/-- Texts without commas are the parts between the commas, a blank apart. -/
theorem Text.splitAtMark_comma_joined {first : String} {others : List String}
    (h : ∀ text ∈ first :: others, ',' ∉ text.toList) :
    splitAtMark ',' (joined ", " (first :: others)).toList
      = first.toList :: others.map fun text => ' ' :: text.toList := by
  induction others generalizing first with
  | nil => exact splitAtMark_of_notMem (h first List.mem_cons_self)
  | cons second others ih =>
    obtain ⟨hfirst, hothers⟩ := List.forall_mem_cons.1 h
    have hwritten : (joined ", " (first :: second :: others)).toList
        = first.toList ++ ',' :: ' ' :: (joined ", " (second :: others)).toList := by
      rw [joined_cons (List.cons_ne_nil second others)]
      simp
    rw [hwritten, splitAtMark_append, splitAtMark_of_notMem hfirst,
      splitAtMark_cons_of_ne (by decide) (ih hothers)]
    rfl

namespace FieldType

variable {type : FieldType} {types types' : List FieldType}

/-- Plain types are told apart by their spelling, in lists as well. -/
theorem eq_of_map_qualifiedName_eq (h : ∀ type ∈ types, type.isPlain = true)
    (h' : ∀ type ∈ types', type.isPlain = true)
    (hsame : types.map qualifiedName = types'.map qualifiedName) : types = types' := by
  induction types generalizing types' with
  | nil => exact (List.map_eq_nil_iff.1 hsame.symm).symm
  | cons type types ih =>
    obtain ⟨other, others, rfl, hother, hothers⟩ := List.map_eq_cons_iff.1 hsame.symm
    obtain ⟨htype, htypes⟩ := List.forall_mem_cons.1 h
    obtain ⟨hplain, hplains⟩ := List.forall_mem_cons.1 h'
    rw [eq_of_qualifiedName_eq htype hplain hother.symm, ih htypes hplains hothers.symm]

/-- The spellings of plain types are found again between the commas. -/
theorem splitAtMark_comma_spellings (h : ∀ other ∈ type :: types, other.isPlain = true) :
    splitAtMark ',' (joined ", " ((type :: types).map qualifiedName)).toList
      = type.qualifiedName.toList
        :: (types.map qualifiedName).map fun text => ' ' :: text.toList := by
  refine splitAtMark_comma_joined fun text htext => ?_
  rw [← List.map_cons] at htext
  obtain ⟨other, hother, rfl⟩ := List.mem_map.1 htext
  exact comma_notMem_qualifiedName (h other hother)

/-- No type is spelled as nothing. -/
theorem joined_spellings_ne_empty (h : ∀ other ∈ type :: types, other.isPlain = true) :
    joined ", " ((type :: types).map qualifiedName) ≠ "" := by
  intro hnone
  have hparts := splitAtMark_comma_spellings h
  rw [hnone] at hparts
  have hempty : type.qualifiedName = "" := String.toList_eq_nil_iff.1 (List.cons.inj hparts).1.symm
  exact qualifiedName_ne_empty (h type List.mem_cons_self) hempty

/-- Plain types in a row are told by their spellings. -/
theorem eq_of_joined_eq (h : ∀ type ∈ types, type.isPlain = true)
    (h' : ∀ type ∈ types', type.isPlain = true)
    (hsame : joined ", " (types.map qualifiedName) = joined ", " (types'.map qualifiedName)) :
    types = types' := by
  cases types with
  | nil =>
    cases types' with
    | nil => rfl
    | cons other others => exact absurd hsame.symm (joined_spellings_ne_empty h')
  | cons type types =>
    cases types' with
    | nil => exact absurd hsame (joined_spellings_ne_empty h)
    | cons other others =>
      have hparts := splitAtMark_comma_spellings h
      rw [hsame, splitAtMark_comma_spellings h', List.cons.injEq, String.toList_inj] at hparts
      have hinjective : Function.Injective fun text : String => ' ' :: text.toList :=
        fun _ _ hcons => String.toList_inj.1 (List.cons.inj hcons).2
      have hothers := List.map_injective_iff.2 hinjective hparts.2
      refine eq_of_map_qualifiedName_eq h h' ?_
      rw [List.map_cons, List.map_cons, hparts.1, hothers]

end FieldType

namespace Overload

variable {first second : Overload}

/-- A key tells its overload where all names are plain. -/
theorem eq_of_key_eq (hfirst : first.isPlain = true) (hsecond : second.isPlain = true)
    (h : first.key = second.key) : first = second := by
  simp only [isPlain, Bool.and_eq_true, Bool.not_eq_true', List.contains_eq_mem,
    decide_eq_false_iff_not, List.all_eq_true] at hfirst hsecond
  rw [← String.toList_inj, toList_key, toList_key] at h
  have htexts := List.append_cancel_right h
  have hname : first.name = second.name := by
    have hparts := congrArg (splitAtMark '(') htexts
    rw [splitAtMark_append, splitAtMark_append, splitAtMark_of_notMem hfirst.1,
      splitAtMark_of_notMem hsecond.1] at hparts
    exact String.toList_inj.1 (List.cons.inj hparts).1
  rw [hname] at htexts
  have hspelling : first.spelling = second.spelling :=
    String.toList_inj.1 (List.cons.inj (List.append_cancel_left htexts)).2
  have hparameters : first.parameters = second.parameters :=
    FieldType.eq_of_joined_eq hfirst.2 hsecond.2 hspelling
  cases first
  cases second
  rw [mk.injEq]
  exact ⟨hname, hparameters⟩

end Overload

end ClassAtlas
