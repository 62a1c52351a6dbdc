import ClassAtlas.Text.Dotted
import Mathlib.Data.List.Basic

/-!
# Splitting texts

Splitting a text at a mark undoes joining its parts by the mark, as long as no part
has the mark in it. A text that is put together around a mark has the parts of both
sides, and the parts hold every character but the marks. Texts in a row that are not
empty are no more than their characters. Dropping an ending undoes appending it, and
replacing a mark is undone by replacing it back where the other mark did not stand in
the text.
-/

namespace ClassAtlas.Text

variable {mark : Char}

theorem splitAtMark_cons_self (text : List Char) :
    splitAtMark mark (mark :: text) = [] :: splitAtMark mark text := by
  unfold splitAtMark
  rw [List.foldr_cons, if_pos rfl]

/-- Any other character belongs to the first part. -/
theorem splitAtMark_cons_of_ne {c : Char} {text part : List Char} {others : List (List Char)}
    (hne : c ≠ mark) (h : splitAtMark mark text = part :: others) :
    splitAtMark mark (c :: text) = (c :: part) :: others := by
  unfold splitAtMark at h ⊢
  rw [List.foldr_cons, if_neg hne, h]

/-- Every text has a first part. -/
theorem exists_splitAtMark_eq_cons (mark : Char) (text : List Char) :
    ∃ part others, splitAtMark mark text = part :: others := by
  induction text with
  | nil => exact ⟨[], [], rfl⟩
  | cons c text ih =>
    obtain ⟨part, others, hsplit⟩ := ih
    by_cases hmark : c = mark
    · rw [hmark]
      exact ⟨[], _, splitAtMark_cons_self text⟩
    · exact ⟨c :: part, others, splitAtMark_cons_of_ne hmark hsplit⟩

/-- The parts of a text around a mark are those in front of it and those behind it. -/
theorem splitAtMark_append (front back : List Char) :
    splitAtMark mark (front ++ mark :: back)
      = splitAtMark mark front ++ splitAtMark mark back := by
  induction front with
  | nil => exact splitAtMark_cons_self back
  | cons c front ih =>
    by_cases hmark : c = mark
    · rw [hmark, List.cons_append, splitAtMark_cons_self, splitAtMark_cons_self, ih,
        List.cons_append]
    · obtain ⟨part, others, hsplit⟩ := exists_splitAtMark_eq_cons mark front
      rw [hsplit, List.cons_append] at ih
      rw [List.cons_append, splitAtMark_cons_of_ne hmark ih, splitAtMark_cons_of_ne hmark hsplit,
        List.cons_append]

theorem splitAtMark_of_notMem {text : List Char} (h : mark ∉ text) :
    splitAtMark mark text = [text] := by
  induction text with
  | nil => rfl
  | cons c text ih =>
    rw [List.mem_cons, not_or] at h
    exact splitAtMark_cons_of_ne (Ne.symm h.1) (ih h.2)

/-- What is appended without a mark belongs to the last part. -/
theorem exists_splitAtMark_append {back : List Char} (h : mark ∉ back) (front : List Char) :
    ∃ parts last, splitAtMark mark front = parts ++ [last]
      ∧ splitAtMark mark (front ++ back) = parts ++ [last ++ back] := by
  induction front with
  | nil => exact ⟨[], [], rfl, splitAtMark_of_notMem h⟩
  | cons c front ih =>
    obtain ⟨parts, last, hfront, hboth⟩ := ih
    by_cases hmark : c = mark
    · refine ⟨[] :: parts, last, ?_, ?_⟩
      · rw [hmark, splitAtMark_cons_self, hfront, List.cons_append]
      · rw [hmark, List.cons_append, splitAtMark_cons_self, hboth, List.cons_append]
    · cases parts with
      | nil =>
        exact ⟨[], c :: last, splitAtMark_cons_of_ne hmark hfront,
          splitAtMark_cons_of_ne hmark hboth⟩
      | cons first parts =>
        exact ⟨(c :: first) :: parts, last, splitAtMark_cons_of_ne hmark hfront,
          splitAtMark_cons_of_ne hmark hboth⟩

/-- Parts without the mark are found again in the text that they are joined to. -/
theorem splitAtMark_intercalate {parts : List (List Char)} (hsome : parts ≠ [])
    (h : ∀ part ∈ parts, mark ∉ part) :
    splitAtMark mark (List.intercalate [mark] parts) = parts := by
  induction parts with
  | nil => exact absurd rfl hsome
  | cons part parts ih =>
    obtain ⟨hpart, hparts⟩ := List.forall_mem_cons.1 h
    cases parts with
    | nil =>
      rw [List.intercalate_singleton]
      exact splitAtMark_of_notMem hpart
    | cons second others =>
      rw [List.intercalate_cons_cons, List.append_assoc, List.singleton_append,
        splitAtMark_append, splitAtMark_of_notMem hpart,
        ih (List.cons_ne_nil second others) hparts, List.singleton_append]

/-- The parts of a joined text, where no part has the mark that joins them. -/
theorem splitAtMark_joined {separator : String} {parts : List String}
    (hmark : separator.toList = [mark]) (hsome : parts ≠ [])
    (h : ∀ part ∈ parts, mark ∉ part.toList) :
    (splitAtMark mark (joined separator parts).toList).map String.ofList = parts := by
  have hmarks : ∀ part ∈ parts.map String.toList, mark ∉ part :=
    List.forall_mem_map.2 h
  have hwritten : (String.ofList ∘ String.toList) = id := funext fun _ => String.ofList_toList
  rw [joined, String.toList_intercalate, hmark,
    splitAtMark_intercalate (fun hnil => hsome (List.map_eq_nil_iff.1 hnil)) hmarks, List.map_map,
    hwritten, List.map_id]

/-- A text is its parts, joined by the mark. -/
theorem intercalate_splitAtMark (text : List Char) :
    List.intercalate [mark] (splitAtMark mark text) = text := by
  induction text with
  | nil => rfl
  | cons c text ih =>
    obtain ⟨part, others, hsplit⟩ := exists_splitAtMark_eq_cons mark text
    rw [hsplit] at ih
    by_cases hmark : c = mark
    · rw [hmark, splitAtMark_cons_self, hsplit, List.intercalate_cons_cons, ih]
      rfl
    · rw [splitAtMark_cons_of_ne hmark hsplit]
      cases others with
      | nil =>
        rw [List.intercalate_singleton] at ih ⊢
        rw [ih]
      | cons second others =>
        rw [List.intercalate_cons_cons] at ih ⊢
        rw [List.cons_append, List.cons_append, ih]

/-- A dotted name is its segments, joined by points. -/
theorem joined_segments (name : String) : joined "." (segments name) = name := by
  have hwritten : (String.toList ∘ String.ofList) = id := funext fun _ => String.toList_ofList
  have hpoint : ".".toList = ['.'] := rfl
  rw [← String.toList_inj, joined, String.toList_intercalate, segments, List.map_map, hwritten,
    List.map_id, hpoint, intercalate_splitAtMark]

/-- No two names have the same segments. -/
theorem segments_inj {first second : String} : segments first = segments second ↔ first = second := by
  constructor
  · intro hsame
    rw [← joined_segments first, hsame, joined_segments]
  · exact congrArg segments

/-- Every name has a first segment. -/
theorem exists_segments_eq_cons (name : String) :
    ∃ segment others, segments name = segment :: others := by
  obtain ⟨part, others, hsplit⟩ := exists_splitAtMark_eq_cons '.' name.toList
  rw [segments, hsplit]
  exact ⟨String.ofList part, others.map String.ofList, rfl⟩

/-- The parts hold all characters but the marks, in order. -/
theorem flatten_splitAtMark (text : List Char) :
    (splitAtMark mark text).flatten = text.filter (· ≠ mark) := by
  induction text with
  | nil => rfl
  | cons c text ih =>
    by_cases hmark : c = mark
    · rw [hmark, splitAtMark_cons_self, List.flatten_cons, List.nil_append, ih,
        List.filter_cons_of_neg (by simp)]
    · obtain ⟨part, others, hsplit⟩ := exists_splitAtMark_eq_cons mark text
      rw [hsplit, List.flatten_cons] at ih
      rw [splitAtMark_cons_of_ne hmark hsplit, List.flatten_cons, List.cons_append, ih,
        List.filter_cons_of_pos (by simpa using hmark)]

/-- Any character but the mark stands in the parts as often as in the text. -/
theorem count_flatten_splitAtMark {c : Char} (h : c ≠ mark) (text : List Char) :
    (splitAtMark mark text).flatten.count c = text.count c := by
  have hkept : decide (c ≠ mark) = true := decide_eq_true h
  rw [flatten_splitAtMark, List.count_filter (p := fun other => decide (other ≠ mark)) hkept]

/-- Texts in a row take at least as many characters as there are texts, if none is empty. -/
theorem length_le_length_flatMap {α : Type} {text : α → List Char}
    (h : ∀ part, text part ≠ []) (parts : List α) :
    parts.length ≤ (parts.flatMap text).length := by
  induction parts with
  | nil => exact Nat.zero_le _
  | cons part parts ih =>
    have hpos := List.length_pos_of_ne_nil (h part)
    simp only [List.length_cons, List.flatMap_cons, List.length_append]
    omega

/-- A text has an ending when it is something with the ending appended. -/
theorem dropEnding?_eq_some_iff (ending text stem : String) :
    dropEnding? ending text = some stem ↔ text = stem ++ ending := by
  unfold dropEnding?
  constructor
  · intro h
    split at h
    · next hending =>
      have hsuffix : ending.toList <:+ text.toList := List.isSuffixOf_iff_suffix.1 hending
      rw [← Option.some.inj h, ← String.toList_inj, String.toList_append, String.toList_ofList,
        List.suffix_iff_eq_append.1 hsuffix]
    · cases h
  · intro h
    have hsuffix : ending.toList <:+ text.toList := by
      rw [h, String.toList_append]
      exact List.suffix_append stem.toList ending.toList
    rw [if_pos (List.isSuffixOf_iff_suffix.2 hsuffix), h, String.toList_append,
      List.length_append, Nat.add_sub_cancel, List.take_left, String.ofList_toList]

theorem notMem_replaceMark {replacement : Char} (h : replacement ≠ mark) (text : String) :
    mark ∉ (replaceMark mark replacement text).toList := by
  unfold replaceMark
  rw [String.toList_ofList, List.mem_map]
  intro ⟨c, _, hc⟩
  split at hc
  · exact h hc
  · next hne => exact hne hc

/-- A mark that did not stand in the text before can be replaced back. -/
theorem replaceMark_replaceMark {replacement : Char} {text : String}
    (h : replacement ∉ text.toList) :
    replaceMark replacement mark (replaceMark mark replacement text) = text := by
  unfold replaceMark
  rw [String.toList_ofList, List.map_map]
  have hsame : ∀ c ∈ text.toList, ((fun c => if c = replacement then mark else c)
      ∘ fun c => if c = mark then replacement else c) c = c := by
    intro c hc
    have hne : c ≠ replacement := fun hreplaced => h (hreplaced ▸ hc)
    by_cases hmark : c = mark
    · simp [hmark]
    · simp [hmark, hne]
  rw [List.map_congr_left hsame, List.map_id', String.ofList_toList]

end ClassAtlas.Text
