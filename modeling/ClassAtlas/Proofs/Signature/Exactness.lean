import ClassAtlas.Proofs.Signature.Layout
import ClassAtlas.Proofs.Text.Splitting
import Mathlib.Data.List.TakeWhile

/-!
# Signatures are read from their layouts

Each reader gives back what a layout of its part writes, in front of any text that
does not go on with the part, and accepts nothing but layouts. What may follow is
told by the first character behind the layout of the text. The readers are settled
from the inside out, and a text is a signature exactly if it is a layout of it.
-/

namespace ClassAtlas

namespace Signature

open Text

/-! ## Layout between the parts -/

/-- Layout characters are no characters of identifiers. -/
theorem isIdentifierChar_of_isLayout {c : Char} (h : isLayout c = true) :
    isIdentifierChar c = false := by
  simp only [isLayout, Bool.or_eq_true, decide_eq_true_eq] at h
  rcases h with ((rfl | rfl) | rfl) | rfl <;> decide

theorem isLayout_of_isIdentifierChar {c : Char} (h : isIdentifierChar c = true) :
    isLayout c = false := by
  rw [← Bool.not_eq_true]
  intro hlayout
  rw [isIdentifierChar_of_isLayout hlayout] at h
  exact Bool.noConfusion h

/-- A gap is skipped as a whole. -/
theorem skipLayout_gap (gap : Gap) (rest : List Char) :
    skipLayout (gap.text ++ rest) = skipLayout rest :=
  List.dropWhile_append_of_pos gap.isLayout_of_mem

/-- Nothing is skipped in front of a character that is no layout. -/
theorem skipLayout_cons {c : Char} (h : isLayout c = false) (rest : List Char) :
    skipLayout (c :: rest) = c :: rest :=
  List.dropWhile_cons_of_neg (by simp [h])

/-- What is skipped is a gap. -/
theorem exists_gap (text : List Char) : ∃ gap : Gap, text = gap.text ++ skipLayout text :=
  ⟨⟨text.takeWhile isLayout, fun _ hmem => List.mem_takeWhile_imp hmem⟩,
    List.takeWhile_append_dropWhile.symm⟩

/-- The first character of a text behind its leading layout. -/
def nextMark (text : List Char) : Option Char :=
  (skipLayout text).head?

/-- A gap does not hide the next mark. -/
theorem nextMark_gap (gap : Gap) (rest : List Char) :
    nextMark (gap.text ++ rest) = nextMark rest := by
  rw [nextMark, skipLayout_gap, nextMark]

theorem nextMark_cons {c : Char} (h : isLayout c = false) (rest : List Char) :
    nextMark (c :: rest) = some c := by
  rw [nextMark, skipLayout_cons h, List.head?_cons]

/-! ## Identifiers -/

/-- An identifier starts with a character of identifiers. -/
theorem Identifier.exists_cons (identifier : Identifier) :
    ∃ c others, identifier.text = c :: others ∧ isIdentifierChar c = true
      ∧ ∀ other ∈ others, isIdentifierChar other = true := by
  obtain ⟨c, others, hcons⟩ := List.exists_cons_of_ne_nil identifier.text_ne_nil
  have hmem := identifier.isIdentifierChar_of_mem
  rw [hcons, List.forall_mem_cons] at hmem
  exact ⟨c, others, hcons, hmem⟩

theorem skipLayout_identifier (identifier : Identifier) (rest : List Char) :
    skipLayout (identifier.text ++ rest) = identifier.text ++ rest := by
  obtain ⟨c, others, hcons, hc, -⟩ := identifier.exists_cons
  rw [hcons, List.cons_append, skipLayout_cons (isLayout_of_isIdentifierChar hc)]

/-- An identifier is read back in front of anything that does not go on with it. -/
theorem readIdentifier_text (identifier : Identifier) {rest : List Char}
    (h : ∀ c, rest.head? = some c → isIdentifierChar c = false) :
    readIdentifier (identifier.text ++ rest) = some (identifier.text, rest) := by
  obtain ⟨c, others, hcons, -⟩ := identifier.exists_cons
  have hstop : rest.takeWhile isIdentifierChar = [] ∧ rest.dropWhile isIdentifierChar = rest := by
    cases rest with
    | nil => exact ⟨rfl, rfl⟩
    | cons d behind => simp [h d rfl]
  rw [readIdentifier, List.takeWhile_append_of_pos identifier.isIdentifierChar_of_mem,
    List.dropWhile_append_of_pos identifier.isIdentifierChar_of_mem, hstop.1, hstop.2,
    List.append_nil]
  simp [hcons]

/-- Whatever is read as an identifier is one. -/
theorem exists_identifier_of_readIdentifier {text found rest : List Char}
    (h : readIdentifier text = some (found, rest)) :
    ∃ identifier : Identifier, identifier.text = found ∧ text = identifier.text ++ rest := by
  unfold readIdentifier at h
  split at h
  · cases h
  · next hfound =>
    obtain ⟨rfl, rfl⟩ := Prod.mk.inj (Option.some.inj h)
    exact ⟨⟨text.takeWhile isIdentifierChar, hfound, fun _ hmem => List.mem_takeWhile_imp hmem⟩,
      rfl, List.takeWhile_append_dropWhile.symm⟩

/-! ## Dotted names -/

/-- Whether a dotted name in front of a text ends where the text begins. -/
def StopsName (rest : List Char) : Prop :=
  ∀ read, dottedBehind read rest = (read.reverse, rest)

/-- A dotted name stops at a character that is neither a point nor part of an identifier. -/
theorem stopsName_cons {c : Char} (hc : isIdentifierChar c = false) (hpoint : c ≠ '.')
    (rest : List Char) : StopsName (c :: rest) := by
  intro read
  rw [dottedBehind.eq_def]
  simp [hc, hpoint]

/-- A point without an identifier behind it does not belong to the name. -/
theorem stopsName_points (rest : List Char) : StopsName ('.' :: '.' :: rest) := by
  have hpoint : isIdentifierChar '.' = false := by decide
  intro read
  simp [dottedBehind, hpoint]

/-- A name ends where layout begins, or else where the text behind it begins. -/
theorem stopsName_gap (gap : Gap) {rest : List Char} (h : gap.text ≠ [] ∨ StopsName rest) :
    StopsName (gap.text ++ rest) := by
  cases hgap : gap.text with
  | nil => exact h.resolve_left (· hgap)
  | cons c others =>
    have hc : isLayout c = true := gap.isLayout_of_mem c (by simp [hgap])
    have hpoint : c ≠ '.' := by
      rintro rfl
      exact Bool.noConfusion hc
    exact stopsName_cons (isIdentifierChar_of_isLayout hc) hpoint _

/-- A character of an identifier is added to the name read so far. -/
theorem dottedBehind_cons {c : Char} (hc : isIdentifierChar c = true) (read rest : List Char) :
    dottedBehind read (c :: rest) = dottedBehind (c :: read) rest := by
  rw [dottedBehind.eq_def]
  simp [hc]

theorem dottedBehind_append {chars : List Char}
    (h : ∀ c ∈ chars, isIdentifierChar c = true) (read rest : List Char) :
    dottedBehind read (chars ++ rest) = dottedBehind (chars.reverse ++ read) rest := by
  induction chars generalizing read with
  | nil => rfl
  | cons c chars ih =>
    obtain ⟨hc, hchars⟩ := List.forall_mem_cons.1 h
    rw [List.cons_append, dottedBehind_cons hc, ih hchars, List.reverse_cons, List.append_assoc,
      List.singleton_append]

/-- Further identifiers are read behind their points. The induction is on the identifiers. -/
theorem dottedBehind_others (others : List Identifier) (read : List Char) {rest : List Char}
    (h : StopsName rest) :
    dottedBehind read (others.flatMap (fun other => '.' :: other.text) ++ rest)
      = (read.reverse ++ others.flatMap (fun other => '.' :: other.text), rest) := by
  have hpoint : isIdentifierChar '.' = false := by decide
  induction others generalizing read with
  | nil =>
    rw [List.flatMap_nil, List.nil_append, List.append_nil]
    exact h read
  | cons other others ih =>
    obtain ⟨c, chars, hcons, hc, hchars⟩ := other.exists_cons
    have hfirst : dottedBehind read ('.' :: c :: (chars
          ++ (others.flatMap (fun other => '.' :: other.text) ++ rest)))
        = dottedBehind (c :: '.' :: read) (chars
          ++ (others.flatMap (fun other => '.' :: other.text) ++ rest)) := by
      simp [dottedBehind, hpoint, hc]
    rw [List.flatMap_cons, hcons, List.append_assoc, List.cons_append, List.cons_append, hfirst,
      dottedBehind_append hchars, ih]
    simp

/-- A dotted name is read back in front of anything that does not go on with it. -/
theorem readDottedName_text (name : DottedName) {rest : List Char} (h : StopsName rest) :
    readDottedName (name.text ++ rest) = some (name.text, rest) := by
  obtain ⟨c, chars, hcons, hc, hchars⟩ := name.first.exists_cons
  rw [DottedName.text, hcons, List.cons_append, List.cons_append, List.append_assoc,
    readDottedName, if_pos hc, dottedBehind_append hchars, dottedBehind_others name.others _ h]
  simp

theorem skipLayout_dottedName (name : DottedName) (rest : List Char) :
    skipLayout (name.text ++ rest) = name.text ++ rest := by
  rw [DottedName.text, List.append_assoc, skipLayout_identifier]

/-- What is read behind a part of a dotted name goes on with it: the rest of the identifier first,
then further ones behind their points. The induction follows the reader. -/
theorem exists_others_of_dottedBehind {read text found rest : List Char}
    (h : dottedBehind read text = (found, rest)) :
    ∃ (chars : List Char) (others : List Identifier),
      (∀ c ∈ chars, isIdentifierChar c = true)
        ∧ found = read.reverse ++ (chars ++ others.flatMap fun other => '.' :: other.text)
        ∧ text = (chars ++ others.flatMap fun other => '.' :: other.text) ++ rest := by
  fun_induction dottedBehind read text with
  | case1 read | case3 read | case5 read | case6 read =>
    obtain ⟨rfl, rfl⟩ := Prod.mk.inj h
    exact ⟨[], [], by simp⟩
  | case2 read c text hc ih =>
    obtain ⟨chars, others, hchars, rfl, rfl⟩ := ih h
    exact ⟨c :: chars, others, List.forall_mem_cons.2 ⟨hc, hchars⟩, by simp, by simp⟩
  | case4 read c text hc _ ih =>
    obtain ⟨chars, others, hchars, rfl, rfl⟩ := ih h
    have hmem : ∀ other ∈ c :: chars, isIdentifierChar other = true :=
      List.forall_mem_cons.2 ⟨hc, hchars⟩
    exact ⟨[], ⟨c :: chars, List.cons_ne_nil c chars, hmem⟩ :: others, by simp, by simp, by simp⟩

/-- Whatever is read as a dotted name is one. -/
theorem exists_dottedName_of_readDottedName {text found rest : List Char}
    (h : readDottedName text = some (found, rest)) :
    ∃ name : DottedName, name.text = found ∧ text = name.text ++ rest := by
  cases text with
  | nil => cases h
  | cons c text =>
    rw [readDottedName] at h
    split at h
    · next hc =>
      obtain ⟨chars, others, hchars, rfl, rfl⟩ :=
        exists_others_of_dottedBehind (Option.some.inj h)
      have hmem : ∀ other ∈ c :: chars, isIdentifierChar other = true :=
        List.forall_mem_cons.2 ⟨hc, hchars⟩
      exact ⟨⟨⟨c :: chars, List.cons_ne_nil c chars, hmem⟩, others⟩, by simp [DottedName.text],
        by simp [DottedName.text]⟩
    · cases h

/-! ## Generic arguments -/

/-- An opening angle bracket goes one level down. -/
theorem skipGroup_open (depth : Nat) (rest : List Char) :
    skipGroup depth ('<' :: rest) = skipGroup (depth + 1) rest := by
  rw [skipGroup.eq_def]
  simp

/-- A closing angle bracket on the outermost level ends the group. -/
theorem skipGroup_close_zero (rest : List Char) : skipGroup 0 ('>' :: rest) = some rest := rfl

/-- A closing angle bracket on any other level goes one level up. -/
theorem skipGroup_close_succ (depth : Nat) (rest : List Char) :
    skipGroup (depth + 1) ('>' :: rest) = skipGroup depth rest := rfl

/-- Other characters of a group are passed over. -/
theorem skipGroup_other {c : Char} (hopen : c ≠ '<') (hclose : c ≠ '>') (depth : Nat)
    (rest : List Char) : skipGroup depth (c :: rest) = skipGroup depth rest := by
  rw [skipGroup.eq_def]
  simp [hopen, hclose]

/-- Nothing of a balanced text ends a group around it. -/
theorem skipGroup_balanced {inner : List Char} (h : Balanced inner) (depth : Nat)
    (rest : List Char) : skipGroup depth (inner ++ rest) = skipGroup depth rest := by
  induction h generalizing depth rest with
  | nil => rfl
  | other hopen hclose _ ih =>
    rw [List.cons_append, skipGroup_other hopen hclose, ih]
  | group _ _ ihinner ihrest =>
    rw [List.cons_append, skipGroup_open, List.append_assoc, ihinner, List.cons_append,
      skipGroup_close_succ, ihrest]

/-- In front of the end of a group stands a balanced text. The induction is on the length: behind
a group inside the text, the search goes on at the depth it had in front of it. -/
theorem exists_balanced_of_skipGroup {depth : Nat} {text rest : List Char}
    (h : skipGroup depth text = some rest) :
    ∃ inner behind, Balanced inner ∧ text = inner ++ '>' :: behind
      ∧ skipGroup depth ('>' :: behind) = some rest := by
  induction hlength : text.length using Nat.strong_induction_on generalizing depth text with
  | _ length ih =>
    subst hlength
    cases text with
    | nil => cases h
    | cons c text =>
      by_cases hopen : c = '<'
      · subst hopen
        rw [skipGroup_open] at h
        obtain ⟨first, between, hfirst, rfl, hbetween⟩ := ih text.length (by simp) h rfl
        rw [skipGroup_close_succ] at hbetween
        obtain ⟨second, behind, hsecond, rfl, hbehind⟩ :=
          ih between.length (by simp; omega) hbetween rfl
        exact ⟨'<' :: (first ++ '>' :: second), behind, .group hfirst hsecond, by simp, hbehind⟩
      · by_cases hclose : c = '>'
        · subst hclose
          exact ⟨[], text, .nil, rfl, h⟩
        · rw [skipGroup_other hopen hclose] at h
          obtain ⟨inner, behind, hinner, rfl, hbehind⟩ := ih text.length (by simp) h rfl
          exact ⟨c :: inner, behind, .other hopen hclose hinner, rfl, hbehind⟩

/-- Generic arguments are skipped, if there are any. -/
theorem skipGenericArguments_text (generics : Option GenericArguments) {rest : List Char}
    (h : nextMark rest ≠ some '<') :
    skipGenericArguments (generics.elim [] GenericArguments.text ++ rest) = rest := by
  cases generics with
  | none =>
    rw [Option.elim_none, List.nil_append]
    unfold skipGenericArguments
    split
    · next inner hskip => exact absurd (by rw [nextMark, hskip, List.head?_cons]) h
    · rfl
  | some arguments =>
    have hshape : arguments.text ++ rest
        = arguments.before.text ++ '<' :: (arguments.inner ++ '>' :: rest) := by
      simp [GenericArguments.text]
    have hgroup : skipGroup 0 (arguments.inner ++ '>' :: rest) = some rest := by
      rw [skipGroup_balanced arguments.balanced, skipGroup_close_zero]
    rw [Option.elim_some, hshape, skipGenericArguments, skipLayout_gap,
      skipLayout_cons (by decide)]
    simp only [hgroup, Option.getD_some]

/-- Whatever is skipped are generic arguments. -/
theorem exists_generics (text : List Char) :
    ∃ generics : Option GenericArguments,
      text = generics.elim [] GenericArguments.text ++ skipGenericArguments text := by
  unfold skipGenericArguments
  split
  · next inner hskip =>
    cases hgroup : skipGroup 0 inner with
    | none => exact ⟨none, rfl⟩
    | some rest =>
      obtain ⟨before, hbefore⟩ := exists_gap text
      obtain ⟨arguments, behind, hbalanced, rfl, hbehind⟩ := exists_balanced_of_skipGroup hgroup
      rw [skipGroup_close_zero, Option.some.injEq] at hbehind
      refine ⟨some ⟨before, arguments, hbalanced⟩, ?_⟩
      rw [hskip] at hbefore
      simpa [GenericArguments.text, hbehind] using hbefore
  · exact ⟨none, rfl⟩

/-! ## Array dimensions -/

/-- Written brackets are read, with their gaps. -/
theorem readBrackets_text (brackets : Brackets) (rest : List Char) :
    readBrackets (brackets.text ++ rest) = some rest := by
  have hshape : brackets.text ++ rest
      = brackets.before.text ++ '[' :: (brackets.inside.text ++ ']' :: rest) := by
    simp [Brackets.text]
  rw [hshape, readBrackets, skipLayout_gap, skipLayout_cons (by decide)]
  simp only
  rw [skipLayout_gap, skipLayout_cons (by decide)]
  rfl

/-- No brackets are read where the next mark is another one. -/
theorem readBrackets_eq_none {text : List Char} (h : nextMark text ≠ some '[') :
    readBrackets text = none := by
  unfold readBrackets
  split
  · next inner hskip => exact absurd (by rw [nextMark, hskip, List.head?_cons]) h
  · rfl

/-- What is read as brackets is written brackets. -/
theorem exists_brackets_of_readBrackets {text rest : List Char}
    (h : readBrackets text = some rest) : ∃ brackets : Brackets, text = brackets.text ++ rest := by
  unfold readBrackets at h
  split at h
  · next inner hskip =>
    split at h
    · next behind hinner =>
      obtain rfl := Option.some.inj h
      obtain ⟨before, hbefore⟩ := exists_gap text
      obtain ⟨inside, hinside⟩ := exists_gap inner
      rw [hskip] at hbefore
      rw [hinner] at hinside
      exact ⟨⟨before, inside⟩, by rw [hbefore, hinside]; simp [Brackets.text]⟩
    · cases h
  · cases h

/-- Dimensions in a row are counted, when the limit allows. -/
theorem readDimensions_text (brackets : List Brackets) (limit counted : Nat) {rest : List Char}
    (hlimit : brackets.length ≤ limit) (hrest : nextMark rest ≠ some '[') :
    readDimensions limit counted (brackets.flatMap Brackets.text ++ rest)
      = (counted + brackets.length, rest) := by
  induction brackets generalizing limit counted with
  | nil =>
    cases limit with
    | zero => rfl
    | succ limit =>
      rw [List.flatMap_nil, List.nil_append, readDimensions, readBrackets_eq_none hrest]
      rfl
  | cons first brackets ih =>
    obtain ⟨limit, rfl⟩ : ∃ less, limit = less + 1 := Nat.exists_eq_succ_of_ne_zero (by
      simp only [List.length_cons] at hlimit
      omega)
    rw [List.flatMap_cons, List.append_assoc, readDimensions, readBrackets_text]
    simp only
    rw [ih limit (counted + 1) (by simpa using hlimit), List.length_cons]
    simp only [Prod.mk.injEq, and_true]
    omega

/-- Whatever is counted is written in brackets. -/
theorem exists_brackets_of_readDimensions {limit counted total : Nat} {text rest : List Char}
    (h : readDimensions limit counted text = (total, rest)) :
    ∃ brackets : List Brackets, total = counted + brackets.length
      ∧ text = brackets.flatMap Brackets.text ++ rest := by
  induction limit generalizing counted text with
  | zero =>
    obtain ⟨rfl, rfl⟩ := Prod.mk.inj h
    exact ⟨[], rfl, rfl⟩
  | succ limit ih =>
    rw [readDimensions] at h
    split at h
    · next behind hfirst =>
      obtain ⟨first, rfl⟩ := exists_brackets_of_readBrackets hfirst
      obtain ⟨brackets, rfl, rfl⟩ := ih h
      refine ⟨first :: brackets, ?_, by rw [List.flatMap_cons, List.append_assoc]⟩
      rw [List.length_cons]
      omega
    · obtain ⟨rfl, rfl⟩ := Prod.mk.inj h
      exact ⟨[], rfl, rfl⟩

/-- A written ellipsis is read, with the gap in front of it. -/
theorem readEllipsis_text (before : Gap) (rest : List Char) :
    readEllipsis (before.text ++ ['.', '.', '.'] ++ rest) = some rest := by
  rw [List.append_assoc, readEllipsis, skipLayout_gap]
  rfl

theorem readEllipsis_eq_none {text : List Char} (h : nextMark text ≠ some '.') :
    readEllipsis text = none := by
  unfold readEllipsis
  split
  · next rest hskip => exact absurd (by rw [nextMark, hskip, List.head?_cons]) h
  · rfl

/-- What is read as an ellipsis is three points behind a gap. -/
theorem exists_gap_of_readEllipsis {text rest : List Char} (h : readEllipsis text = some rest) :
    ∃ before : Gap, text = before.text ++ ['.', '.', '.'] ++ rest := by
  unfold readEllipsis at h
  split at h
  · next behind hskip =>
    obtain rfl := Option.some.inj h
    obtain ⟨before, hbefore⟩ := exists_gap text
    rw [hskip] at hbefore
    exact ⟨before, by rw [hbefore]; simp⟩
  · cases h

/-! ## Types -/

/-- Whether a type in front of a text ends where the text begins. -/
structure EndsType (rest : List Char) : Prop where
  /-- The name of the type does not go on. -/
  stopsName : StopsName rest
  /-- No generic arguments follow. -/
  nextMark_ne_angle : nextMark rest ≠ some '<'
  /-- No brackets follow. -/
  nextMark_ne_bracket : nextMark rest ≠ some '['
  /-- No `...` follows. -/
  nextMark_ne_point : nextMark rest ≠ some '.'

/-- What follows the brackets of a type, up to the end of the type. -/
theorem EndsType.ellipsisText {rest : List Char} (h : EndsType rest) (type : TypeLayout) :
    StopsName (type.ellipsisText ++ rest) ∧ nextMark (type.ellipsisText ++ rest) ≠ some '<'
      ∧ nextMark (type.ellipsisText ++ rest) ≠ some '[' := by
  unfold TypeLayout.ellipsisText
  cases type.ellipsis with
  | none => exact ⟨h.stopsName, h.nextMark_ne_angle, h.nextMark_ne_bracket⟩
  | some before =>
    have hmark : nextMark (before.text ++ ['.', '.', '.'] ++ rest) = some '.' := by
      rw [List.append_assoc, nextMark_gap]
      exact nextMark_cons (by decide) _
    rw [Option.elim_some, hmark]
    refine ⟨?_, by decide, by decide⟩
    rw [List.append_assoc]
    exact stopsName_gap before (.inr (stopsName_points _))

/-- What follows the generic arguments of a type, if there are any. -/
theorem bracketsText_ends (brackets : List Brackets) {rest : List Char} (hstops : StopsName rest)
    (hmark : nextMark rest ≠ some '<') :
    StopsName (brackets.flatMap Brackets.text ++ rest)
      ∧ nextMark (brackets.flatMap Brackets.text ++ rest) ≠ some '<' := by
  cases brackets with
  | nil => exact ⟨hstops, hmark⟩
  | cons first brackets =>
    rw [List.flatMap_cons, Brackets.text, List.append_assoc, List.append_assoc, List.cons_append,
      nextMark_gap, nextMark_cons (by decide)]
    exact ⟨stopsName_gap _ (.inr (stopsName_cons (by decide) (by decide) _)), by decide⟩

/-- What follows the name of a type. -/
theorem genericsText_stops (generics : Option GenericArguments) {rest : List Char}
    (h : StopsName rest) : StopsName (generics.elim [] GenericArguments.text ++ rest) := by
  cases generics with
  | none => exact h
  | some arguments =>
    rw [Option.elim_some, GenericArguments.text, List.append_assoc, List.cons_append]
    exact stopsName_gap _ (.inr (stopsName_cons (by decide) (by decide) _))

/-- A type is read back in front of anything that does not go on with it. -/
theorem readType_text (type : TypeLayout) {rest : List Char} (h : EndsType rest) :
    readType (type.text ++ rest) = some (type.typeName, rest) := by
  obtain ⟨hellipsisStops, hellipsisAngle, hellipsisBracket⟩ := h.ellipsisText type
  obtain ⟨hbracketsStops, hbracketsAngle⟩ :=
    bracketsText_ends type.brackets hellipsisStops hellipsisAngle
  have hname := readDottedName_text type.base (genericsText_stops type.generics hbracketsStops)
  have hgenerics := skipGenericArguments_text type.generics hbracketsAngle
  have hlimit : type.brackets.length
      ≤ (type.brackets.flatMap Brackets.text ++ (type.ellipsisText ++ rest)).length := by
    have hsome : ∀ brackets : Brackets, brackets.text ≠ [] := by simp [Brackets.text]
    have hlength := length_le_length_flatMap hsome type.brackets
    rw [List.length_append]
    omega
  have hdimensions := readDimensions_text type.brackets _ 0 hlimit hellipsisBracket
  rw [TypeLayout.text, List.append_assoc, List.append_assoc, List.append_assoc, readType, hname]
  simp only [hgenerics, hdimensions, Nat.zero_add]
  rw [TypeLayout.typeName, TypeLayout.dimensions, TypeLayout.ellipsisText]
  cases type.ellipsis with
  | none =>
    rw [Option.elim_none, List.nil_append, readEllipsis_eq_none h.nextMark_ne_point]
    rfl
  | some before =>
    rw [Option.elim_some, readEllipsis_text]
    rfl

/-- Whatever is read as a type is a layout of it. -/
theorem exists_layout_of_readType {text rest : List Char} {typeName : String}
    (h : readType text = some (typeName, rest)) :
    ∃ type : TypeLayout, type.typeName = typeName ∧ text = type.text ++ rest := by
  unfold readType at h
  split at h
  · cases h
  · next found behind hname =>
    obtain ⟨base, rfl, rfl⟩ := exists_dottedName_of_readDottedName hname
    obtain ⟨generics, hgenerics⟩ := exists_generics behind
    cases hdimensions : readDimensions (skipGenericArguments behind).length 0
      (skipGenericArguments behind) with
    | mk dimensions last =>
      obtain ⟨brackets, rfl, hbrackets⟩ := exists_brackets_of_readDimensions hdimensions
      rw [hbrackets] at hgenerics
      simp only [hdimensions] at h
      split at h
      · next hellipsis =>
        obtain ⟨rfl, rfl⟩ := Prod.mk.inj (Option.some.inj h)
        obtain ⟨before, rfl⟩ := exists_gap_of_readEllipsis hellipsis
        refine ⟨⟨base, generics, brackets, some before⟩, ?_, ?_⟩
        · simp [TypeLayout.typeName, TypeLayout.dimensions]
        · rw [hgenerics]
          simp [TypeLayout.text, TypeLayout.ellipsisText]
      · obtain ⟨rfl, rfl⟩ := Prod.mk.inj (Option.some.inj h)
        refine ⟨⟨base, generics, brackets, none⟩, ?_, ?_⟩
        · simp [TypeLayout.typeName, TypeLayout.dimensions]
        · rw [hgenerics]
          simp [TypeLayout.text, TypeLayout.ellipsisText]

/-! ## Parameters -/

/-- Whether a parameter in front of a text ends where the text begins, layout aside: a comma or
the closing parenthesis follows. -/
def EndsParameter (rest : List Char) : Prop :=
  nextMark rest = some ',' ∨ nextMark rest = some ')'

/-- A name ends in front of a mark that is neither a point nor a character of identifiers. -/
theorem stopsName_of_nextMark {rest : List Char} {mark : Char} (h : nextMark rest = some mark)
    (hmark : isIdentifierChar mark = false) (hpoint : mark ≠ '.') : StopsName rest := by
  obtain ⟨gap, hgap⟩ := exists_gap rest
  obtain ⟨others, hskip⟩ := List.head?_eq_some_iff.1 h
  rw [hgap, hskip]
  exact stopsName_gap gap (.inr (stopsName_cons hmark hpoint others))

/-- What ends a parameter ends its type. -/
theorem EndsParameter.endsType {rest : List Char} (h : EndsParameter rest) : EndsType rest := by
  rcases h with hmark | hmark
  all_goals
    have hstops : StopsName rest := stopsName_of_nextMark hmark (by decide) (by decide)
    exact ⟨hstops, by simp [hmark], by simp [hmark], by simp [hmark]⟩

/-- A type also ends in front of the name of its parameter. -/
theorem endsType_name (name : NameLayout) (rest : List Char) : EndsType (name.text ++ rest) := by
  obtain ⟨c, others, hcons, hc, -⟩ := name.name.exists_cons
  have hmark : nextMark (name.text ++ rest) = some c := by
    rw [NameLayout.text, List.append_assoc, nextMark_gap, hcons, List.cons_append,
      nextMark_cons (isLayout_of_isIdentifierChar hc)]
  have hother : ∀ mark, isIdentifierChar mark = false →
      nextMark (name.text ++ rest) ≠ some mark := by
    intro mark hfalse hsome
    obtain rfl := Option.some.inj (hmark.symm.trans hsome)
    exact Bool.noConfusion (hfalse.symm.trans hc)
  refine ⟨?_, hother '<' (by decide), hother '[' (by decide), hother '.' (by decide)⟩
  rw [NameLayout.text, List.append_assoc]
  exact stopsName_gap name.before (.inl name.before_ne_nil)

/-- What ends a parameter does not go on with an identifier. -/
theorem EndsParameter.head?_not_identifier {rest : List Char} (h : EndsParameter rest) :
    ∀ c, rest.head? = some c → isIdentifierChar c = false := by
  intro c hhead
  obtain ⟨others, rfl⟩ := List.head?_eq_some_iff.1 hhead
  by_cases hlayout : isLayout c = true
  · exact isIdentifierChar_of_isLayout hlayout
  · rw [EndsParameter, nextMark_cons (Bool.eq_false_iff.2 hlayout), Option.some.injEq,
      Option.some.injEq] at h
    rcases h with rfl | rfl <;> decide

/-- The name of a parameter is read back behind its layout. -/
theorem readParameterName_text (name : NameLayout) {rest : List Char}
    (h : ∀ c, rest.head? = some c → isIdentifierChar c = false) :
    readParameterName (name.text ++ rest) = some (name.name.text, rest) := by
  obtain ⟨c, others, hcons⟩ := List.exists_cons_of_ne_nil name.before_ne_nil
  have hmem := name.before.isLayout_of_mem
  rw [hcons, List.forall_mem_cons] at hmem
  have hskip := skipLayout_gap ⟨others, hmem.2⟩ (name.name.text ++ rest)
  simp only at hskip
  rw [NameLayout.text, hcons, List.append_assoc, List.cons_append, readParameterName,
    if_pos hmem.1, hskip, skipLayout_identifier, readIdentifier_text name.name h]

/-- In front of a comma or the closing parenthesis there is no name. -/
theorem EndsParameter.readParameterName_eq_none {rest : List Char} (h : EndsParameter rest) :
    readParameterName rest = none := by
  cases rest with
  | nil => rfl
  | cons c others =>
    rw [readParameterName]
    split
    · next hlayout =>
      have hskip : skipLayout (c :: others) = skipLayout others :=
        List.dropWhile_cons_of_pos hlayout
      rw [EndsParameter, nextMark, hskip] at h
      rcases h with hmark | hmark
      all_goals
        obtain ⟨behind, hbehind⟩ := List.head?_eq_some_iff.1 hmark
        rw [hbehind]
        rfl
    · rfl

/-- Whatever is read as the name of a parameter is one, behind some layout. -/
theorem exists_layout_of_readParameterName {text found rest : List Char}
    (h : readParameterName text = some (found, rest)) :
    ∃ name : NameLayout, name.name.text = found ∧ text = name.text ++ rest := by
  cases text with
  | nil => cases h
  | cons c text =>
    rw [readParameterName] at h
    split at h
    · next hlayout =>
      obtain ⟨gap, hgap⟩ := exists_gap text
      obtain ⟨identifier, rfl, hidentifier⟩ := exists_identifier_of_readIdentifier h
      have hmem : ∀ other ∈ c :: gap.text, isLayout other = true :=
        List.forall_mem_cons.2 ⟨hlayout, gap.isLayout_of_mem⟩
      refine ⟨⟨⟨c :: gap.text, hmem⟩, List.cons_ne_nil c gap.text, identifier⟩, rfl, ?_⟩
      rw [hidentifier] at hgap
      rw [hgap]
      simp [NameLayout.text]
    · cases h

/-- A parameter is read back with the layout behind it. -/
theorem readParameter_text (parameter : ParameterLayout) {rest : List Char}
    (h : EndsParameter rest) :
    readParameter (parameter.text ++ rest) = some (parameter.meaning, skipLayout rest) := by
  have hbehind : EndsParameter (parameter.behind.text ++ rest) := by
    rw [EndsParameter, nextMark_gap]
    exact h
  rw [ParameterLayout.text, List.append_assoc, List.append_assoc, List.append_assoc,
    readParameter, skipLayout_gap, ParameterLayout.meaning]
  have hskip : ∀ behind, skipLayout (parameter.type.text ++ behind)
      = parameter.type.text ++ behind := by
    intro behind
    rw [TypeLayout.text, List.append_assoc, skipLayout_dottedName]
  rw [hskip]
  cases parameter.name with
  | none =>
    rw [Option.elim_none, List.nil_append, readType_text _ hbehind.endsType]
    simp only [hbehind.readParameterName_eq_none, skipLayout_gap, Option.map_none]
  | some name =>
    rw [Option.elim_some, readType_text _ (endsType_name name _)]
    simp only [readParameterName_text name hbehind.head?_not_identifier, skipLayout_gap,
      Option.map_some]

/-- Whatever is read as a parameter is a layout of it. -/
theorem exists_layout_of_readParameter {text rest : List Char} {parameter : WrittenParameter}
    (h : readParameter text = some (parameter, rest)) :
    ∃ layout : ParameterLayout, layout.meaning = parameter ∧ text = layout.text ++ rest := by
  obtain ⟨before, hbefore⟩ := exists_gap text
  unfold readParameter at h
  split at h
  · cases h
  · next typeName behind htype =>
    obtain ⟨type, rfl, htext⟩ := exists_layout_of_readType htype
    rw [htext] at hbefore
    split at h
    · next found last hname =>
      obtain ⟨rfl, rfl⟩ := Prod.mk.inj (Option.some.inj h)
      obtain ⟨name, rfl, rfl⟩ := exists_layout_of_readParameterName hname
      obtain ⟨gap, hgap⟩ := exists_gap last
      refine ⟨⟨before, type, some name, gap⟩, rfl, ?_⟩
      simp [hbefore, ParameterLayout.text, ← hgap]
    · obtain ⟨rfl, rfl⟩ := Prod.mk.inj (Option.some.inj h)
      obtain ⟨gap, hgap⟩ := exists_gap behind
      refine ⟨⟨before, type, none, gap⟩, rfl, ?_⟩
      simp [hbefore, ParameterLayout.text, ← hgap]

/-! ## Parameter lists -/

/-- Nothing in front of the closing parenthesis is a parameter. -/
theorem readParameter_eq_none {text : List Char} (h : nextMark text = some ')') :
    readParameter text = none := by
  obtain ⟨others, hskip⟩ := List.head?_eq_some_iff.1 h
  rw [readParameter, hskip]
  rfl

/-- Behind a parameter stands the next one or the closing parenthesis. -/
theorem endsParameter_further (parameters : List ParameterLayout) {rest : List Char}
    (h : nextMark rest = some ')') : EndsParameter (furtherText parameters ++ rest) := by
  cases parameters with
  | nil => exact .inr h
  | cons first parameters => exact .inl (nextMark_cons (by decide) _)

/-- Further parameters take at least as many characters as there are parameters. -/
theorem length_le_length_further (parameters : List ParameterLayout) (rest : List Char) :
    parameters.length ≤ (skipLayout (furtherText parameters ++ rest)).length := by
  have hsome : ∀ parameter : ParameterLayout, ',' :: parameter.text ≠ [] :=
    fun _ => List.cons_ne_nil _ _
  have hlength := length_le_length_flatMap hsome parameters
  cases parameters with
  | nil => exact Nat.zero_le _
  | cons first parameters =>
    have hskip : skipLayout (furtherText (first :: parameters) ++ rest)
        = furtherText (first :: parameters) ++ rest := skipLayout_cons (by decide) _
    rw [hskip, List.length_append]
    exact Nat.le_add_right_of_le hlength

/-- Further parameters are read up to the closing parenthesis, when the limit allows. The layout
in front of a comma or of the parenthesis was skipped with the parameter before it. -/
theorem parametersBehind_text (parameters : List ParameterLayout) (read : List WrittenParameter)
    (limit : Nat) {rest : List Char} (hlimit : parameters.length ≤ limit)
    (hrest : nextMark rest = some ')') :
    parametersBehind read limit (skipLayout (furtherText parameters ++ rest))
      = (read.reverse ++ parameters.map ParameterLayout.meaning, skipLayout rest) := by
  induction parameters generalizing read limit with
  | nil =>
    obtain ⟨others, hskip⟩ := List.head?_eq_some_iff.1 hrest
    have hclose : skipLayout (furtherText [] ++ rest) = ')' :: others := hskip
    rw [hclose, hskip, List.map_nil, List.append_nil]
    cases limit with
    | zero => rfl
    | succ limit => rfl
  | cons first parameters ih =>
    obtain ⟨limit, rfl⟩ : ∃ less, limit = less + 1 := Nat.exists_eq_succ_of_ne_zero (by
      simp only [List.length_cons] at hlimit
      omega)
    have hshape : furtherText (first :: parameters) ++ rest
        = ',' :: (first.text ++ (furtherText parameters ++ rest)) := by
      simp [furtherText]
    have hfirst := readParameter_text first (endsParameter_further parameters hrest)
    rw [hshape, skipLayout_cons (by decide), parametersBehind, hfirst]
    simp only
    rw [ih (first.meaning :: read) limit (by simpa using hlimit)]
    simp

/-- Whatever is read as further parameters is a layout of them, each behind a comma. -/
theorem exists_layouts_of_parametersBehind {read found : List WrittenParameter} {limit : Nat}
    {text rest : List Char} (h : parametersBehind read limit text = (found, rest)) :
    ∃ parameters : List ParameterLayout,
      found = read.reverse ++ parameters.map ParameterLayout.meaning
        ∧ text = furtherText parameters ++ rest := by
  induction limit generalizing read text with
  | zero =>
    obtain ⟨rfl, rfl⟩ := Prod.mk.inj h
    exact ⟨[], by simp, rfl⟩
  | succ limit ih =>
    rw [parametersBehind.eq_def] at h
    simp only at h
    split at h
    · next behind =>
      split at h
      · next parameter last hparameter =>
        obtain ⟨first, rfl, rfl⟩ := exists_layout_of_readParameter hparameter
        obtain ⟨parameters, rfl, rfl⟩ := ih h
        exact ⟨first :: parameters, by simp, by simp [furtherText]⟩
      · obtain ⟨rfl, rfl⟩ := Prod.mk.inj h
        exact ⟨[], by simp, rfl⟩
    · obtain ⟨rfl, rfl⟩ := Prod.mk.inj h
      exact ⟨[], by simp, rfl⟩

/-- Parameters are read back up to the closing parenthesis. -/
theorem readParameters_text (parameters : List ParameterLayout) {rest : List Char}
    (h : nextMark rest = some ')') :
    ∃ behind, readParameters (parametersText parameters ++ rest)
        = (parameters.map ParameterLayout.meaning, behind)
      ∧ skipLayout behind = skipLayout rest := by
  cases parameters with
  | nil =>
    refine ⟨rest, ?_, rfl⟩
    rw [parametersText, List.nil_append, readParameters, readParameter_eq_none h]
    rfl
  | cons first parameters =>
    obtain ⟨others, hskip⟩ := List.head?_eq_some_iff.1 h
    refine ⟨skipLayout rest, ?_, by rw [hskip, skipLayout_cons (by decide)]⟩
    have hfirst := readParameter_text first (endsParameter_further parameters h)
    rw [parametersText, List.append_assoc, readParameters, hfirst]
    simp only
    rw [parametersBehind_text parameters [first.meaning] _ (length_le_length_further _ rest) h]
    simp

/-- Whatever is read as parameters is a layout of them. -/
theorem exists_layouts_of_readParameters {text rest : List Char} {found : List WrittenParameter}
    (h : readParameters text = (found, rest)) :
    ∃ parameters : List ParameterLayout, parameters.map ParameterLayout.meaning = found
      ∧ text = parametersText parameters ++ rest := by
  unfold readParameters at h
  split at h
  · obtain ⟨rfl, rfl⟩ := Prod.mk.inj h
    exact ⟨[], rfl, rfl⟩
  · next parameter behind hparameter =>
    obtain ⟨first, rfl, rfl⟩ := exists_layout_of_readParameter hparameter
    obtain ⟨parameters, rfl, rfl⟩ := exists_layouts_of_parametersBehind h
    exact ⟨first :: parameters, by simp, by simp [parametersText]⟩

/-! ## Signatures -/

/-- A signature is read back from each of its layouts. -/
theorem read_text (layout : SignatureLayout) : read layout.text = some layout.signature := by
  have hopen : StopsName (layout.beforeOpen.text ++ '(' :: (parametersText layout.parameters
      ++ (layout.beforeClose.text ++ ')' :: layout.behind.text))) :=
    stopsName_gap _ (.inr (stopsName_cons (by decide) (by decide) _))
  have hclose : nextMark (layout.beforeClose.text ++ ')' :: layout.behind.text) = some ')' := by
    rw [nextMark_gap, nextMark_cons (by decide)]
  have hend : skipLayout layout.behind.text = [] := by
    have hgap := skipLayout_gap layout.behind []
    rwa [List.append_nil] at hgap
  obtain ⟨behind, hparameters, hskip⟩ := readParameters_text layout.parameters hclose
  rw [skipLayout_gap, skipLayout_cons (by decide)] at hskip
  rw [SignatureLayout.text, read, skipLayout_gap, skipLayout_dottedName,
    readDottedName_text layout.name hopen]
  simp only
  rw [skipLayout_gap, skipLayout_cons (by decide)]
  simp only [hparameters, hskip, hend, SignatureLayout.signature]

/-- Whatever is read as a signature is a layout of it. -/
theorem exists_layout_of_read {text : List Char} {signature : WrittenSignature}
    (h : read text = some signature) :
    ∃ layout : SignatureLayout, layout.signature = signature ∧ layout.text = text := by
  obtain ⟨before, hbefore⟩ := exists_gap text
  unfold read at h
  split at h
  · cases h
  · next found rest hname =>
    obtain ⟨name, rfl, htext⟩ := exists_dottedName_of_readDottedName hname
    obtain ⟨beforeOpen, hbeforeOpen⟩ := exists_gap rest
    rw [htext] at hbefore
    split at h
    · next inner hopen =>
      rw [hopen] at hbeforeOpen
      split at h
      · next parameters last hparameters =>
        obtain ⟨layouts, rfl, rfl⟩ := exists_layouts_of_readParameters hparameters
        obtain ⟨beforeClose, hbeforeClose⟩ := exists_gap last
        split at h
        · next tail hclose =>
          rw [hclose] at hbeforeClose
          obtain ⟨behind, hbehind⟩ := exists_gap tail
          split at h
          · next hend =>
            obtain rfl := Option.some.inj h
            rw [hend, List.append_nil] at hbehind
            refine ⟨⟨before, name, beforeOpen, layouts, beforeClose, behind⟩, rfl, ?_⟩
            rw [hbefore, hbeforeOpen, hbeforeClose, hbehind, SignatureLayout.text]
          · cases h
        · cases h
    · cases h

/-- A text is a signature exactly if it is a layout of it. -/
theorem parse_eq_ok_iff {text : String} {signature : WrittenSignature} :
    parse text = .ok signature
      ↔ ∃ layout : SignatureLayout, layout.signature = signature
        ∧ String.ofList layout.text = text := by
  constructor
  · intro h
    unfold parse at h
    split at h
    · next found hread =>
      obtain rfl := Except.ok.inj h
      obtain ⟨layout, hsignature, htext⟩ := exists_layout_of_read hread
      exact ⟨layout, hsignature, by rw [htext, String.ofList_toList]⟩
    · cases h
  · rintro ⟨layout, rfl, rfl⟩
    rw [parse, String.toList_ofList, read_text]

example : parse "put(Map<K, List<V>> m, byte [] data, Object... rest)"
    = .ok ⟨"put", [⟨"Map", some "m"⟩, ⟨"byte[]", some "data"⟩, ⟨"Object[]", some "rest"⟩]⟩ := by
  cbv

/-- A text is a call exactly if it is a signature, and the call has its name and the types of its
parameters. -/
theorem callSite_parse_eq_ok_iff {text : String} {call : CallSite} :
    CallSite.parse text = .ok call
      ↔ ∃ signature, parse text = .ok signature ∧ call.name = signature.name
        ∧ call.arguments = signature.parameters.map (·.typeName) := by
  unfold CallSite.parse
  cases parse text with
  | error error => simp [Except.map]
  | ok signature =>
    obtain ⟨name, arguments⟩ := call
    simp [Except.map, WrittenSignature.toCallSite, eq_comm]

/-- For all texts and signatures: the signatures that can be declared are those that have layouts,
a text is read as a signature exactly if it is one of its layouts, and it is read as a call exactly
then, with the name of the signature and the types of its parameters. -/
theorem signatures_read_from_layouts :
    (∀ signature : WrittenSignature,
      signature.Declared ↔ ∃ layout : SignatureLayout, layout.signature = signature)
    ∧ (∀ (text : String) (signature : WrittenSignature),
      parse text = .ok signature
        ↔ ∃ layout : SignatureLayout, layout.signature = signature
          ∧ String.ofList layout.text = text)
    ∧ (∀ (text : String) (call : CallSite),
      CallSite.parse text = .ok call
        ↔ ∃ signature, parse text = .ok signature ∧ call.name = signature.name
          ∧ call.arguments = signature.parameters.map (·.typeName)) :=
  ⟨fun _ => WrittenSignature.declared_iff_exists_layout, fun _ _ => parse_eq_ok_iff,
    fun _ _ => callSite_parse_eq_ok_iff⟩

end Signature

end ClassAtlas
