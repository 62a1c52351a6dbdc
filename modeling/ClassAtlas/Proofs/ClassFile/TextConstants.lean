import ClassAtlas.Proofs.ClassFile.PoolInvariant
import ClassAtlas.Proofs.Text.Encodings

/-!
# Text constants

A text written into a text constant, in modified or in plain UTF-8, comes back from the pool
of the class file: the constant is read up to its last byte and no further, and the text is
told at its index, and at the index of every class and string that refers to it.
-/

namespace ClassAtlas

open Reader

/-- The two forms in which a text constant may hold a text. -/
def Text.WrittenAs (text : String) (bytes : Bytes) : Prop :=
  bytes = Text.encodeModified text ∨ bytes = Text.encodeUtf8 text

/-- A text is decoded from what it is written as. -/
theorem Text.WrittenAs.decodeConstant?_eq {text : String} {bytes : Bytes}
    (h : Text.WrittenAs text bytes) : Text.decodeConstant? bytes = some text := by
  rcases h with rfl | rfl
  · exact Text.decodeConstant?_encodeModified text
  · exact Text.decodeConstant?_encodeUtf8 text

/-- What a text is written as means the text constant, if its length fits. -/
theorem Text.WrittenAs.constantMeans {text : String} {bytes : Bytes}
    (h : Text.WrittenAs text bytes) (hfits : bytes.length ≤ 65535) :
    ConstantMeans (.text bytes) (.utf8 text) :=
  ⟨Nat.lt_succ_of_le hfits, text, h.decodeConstant?_eq, rfl⟩

/-- The text at an index is told there, and wherever a class or a string refers to it. -/
structure ConstantPool.Tells (pool : ConstantPool) (index : UInt16) (text : String) : Prop where
  /-- The text itself. -/
  utf8_eq : pool.utf8 index = .ok text
  /-- Classes of this name. -/
  className_eq : ∀ other, pool.get other = .ok (.classEntry index) → pool.className other = .ok text
  /-- Strings of this text. -/
  string_eq : ∀ other, pool.get other = .ok (.stringEntry index) → pool.string other = .ok text

/-- A pool that holds a text tells it in every way of looking it up. -/
theorem ConstantPool.Holds.tells {pool : ConstantPool} {index : UInt16} {text : String}
    (h : pool.Holds index (.utf8 text)) : pool.Tells index text where
  utf8_eq := utf8_eq_ok_iff.2 h
  className_eq _ hother := className_eq_ok_iff.2 ⟨index, get_eq_ok_iff.1 hother, h⟩
  string_eq _ hother := string_eq_ok_iff.2 ⟨index, get_eq_ok_iff.1 hother, h⟩

/-! ## Places in the pool -/

/-- The index of the slot that a constant fills behind others. -/
def indexBehind (before : List RawConstant) : UInt16 :=
  UInt16.ofNat ((before.map RawConstant.slotCount).sum + 1)

/-- A text constant fills the slot behind those of the constants before it. The induction is on
these constants. -/
theorem getElem?_slots_text {before after : List RawConstant} {bytes : Bytes} {text : String}
    {constants : List Constant} (htext : Text.decodeConstant? bytes = some text)
    (h : List.Forall₂ ConstantMeans (before ++ .text bytes :: after) constants) :
    (constants.flatMap Constant.slots)[(before.map RawConstant.slotCount).sum]?
      = some (.usable (.utf8 text)) := by
  induction before generalizing constants with
  | nil =>
    obtain ⟨constant, later, ⟨_, found, hfound, rfl⟩, _, rfl⟩ := List.forall₂_cons_left_iff.1 h
    obtain rfl : text = found := Option.some.inj (htext.symm.trans hfound)
    rfl
  | cons raw before ih =>
    obtain ⟨constant, later, hraw, hlater, rfl⟩ := List.forall₂_cons_left_iff.1 h
    have hslots := PoolReader.length_slots hraw
    rw [List.flatMap_cons, List.map_cons, List.sum_cons, ← hslots,
      List.getElem?_append_right (Nat.le_add_right _ _), Nat.add_sub_cancel_left]
    exact ih hlater

/-- A text behind other constants is held at the index behind their slots. -/
theorem PoolMeans.holds_text {before after : List RawConstant} {bytes : Bytes} {text : String}
    {pool : ConstantPool} (h : PoolMeans (before ++ .text bytes :: after) pool)
    (hsize : pool.size + 1 < 0x10000) (htext : Text.decodeConstant? bytes = some text) :
    pool.Holds (indexBehind before) (.utf8 text) := by
  obtain ⟨⟨constants, hconstants, hpool⟩, _⟩ := h
  have hslot : pool.slots[(before.map RawConstant.slotCount).sum]?
      = some (.usable (.utf8 text)) := by
    rw [← Array.getElem?_toList, hpool]
    exact getElem?_slots_text htext hconstants
  have hindex : (indexBehind before).toNat = (before.map RawConstant.slotCount).sum + 1 :=
    ConstantPool.toNat_index hsize hslot
  refine ⟨fun hzero => ?_, ?_⟩
  · rw [hzero] at hindex
    cases hindex
  · rw [hindex, Nat.add_sub_cancel]
    exact hslot

/-- The pool has as many slots as the constants of the file take. -/
theorem RawClass.Means.size_pool {raw : RawClass} {description : ClassDescription}
    (h : raw.Means description) : description.pool.size = raw.slotCount := by
  obtain ⟨⟨constants, hconstants, hslots⟩, _⟩ := h.pool_means
  rw [ConstantPool.size, ← Array.length_toList, hslots]
  exact length_flatMap_slots hconstants

/-! ## A file for every text -/

/-- A class file that holds a text behind a wide constant, and a class and a string that refer to
the text. -/
def textFile (bytes : Bytes) : RawClass where
  minorVersion := 0
  majorVersion := 52
  constants := [.entry (.long 7) rfl, .text bytes, .entry (.classEntry 3) rfl,
    .entry (.stringEntry 3) rfl]
  flags := 0x21
  nameIndex := 4
  superIndex := 0
  interfaceIndices := []
  fields := []
  methods := []
  attributes := []

/-- What the file of a text describes. -/
def textDescription (text : String) : ClassDescription where
  minorVersion := 0
  majorVersion := 52
  pool := ⟨#[.usable (.long 7), .phantom, .usable (.utf8 text), .usable (.classEntry 3),
    .usable (.stringEntry 3)]⟩
  flags := 0x21
  name := Text.internalToQualified text
  superclass := none
  interfaces := []
  fields := []
  methods := []
  attributes := []

theorem textDescription_crossReferenced (text : String) :
    (textDescription text).pool.CrossReferenced := by
  have htext : (textDescription text).pool.Holds 3 (.utf8 text) := ⟨by decide, rfl⟩
  intro constant hmem
  have hconstant : constant = .long 7 ∨ constant = .utf8 text ∨ constant = .classEntry 3
      ∨ constant = .stringEntry 3 := by
    simpa [textDescription] using hmem
  rcases hconstant with rfl | rfl | rfl | rfl
  · trivial
  · trivial
  · exact ⟨text, htext⟩
  · exact ⟨text, htext⟩

/-- The file of a text is accepted, whatever the text. -/
theorem textFile_means {text : String} {bytes : Bytes} (hwritten : Text.WrittenAs text bytes)
    (hfits : bytes.length ≤ 65535) : (textFile bytes).Means (textDescription text) where
  version_supported := show (45 : UInt16) ≤ 52 ∧ (52 : UInt16) ≤ 69 by decide
  version_eq := ⟨rfl, rfl⟩
  slots_countable := show 5 + 1 < 0x10000 by decide
  pool_means := by
    refine ⟨⟨[.long 7, .utf8 text, .classEntry 3, .stringEntry 3], ?_, rfl⟩,
      textDescription_crossReferenced text⟩
    exact .cons rfl (.cons (hwritten.constantMeans hfits) (.cons rfl (.cons rfl .nil)))
  flags_eq := rfl
  name_named := by
    have hclass : (textDescription text).pool.Holds 4 (.classEntry 3) := ⟨by decide, rfl⟩
    exact ⟨text, ⟨3, hclass, by decide, rfl⟩, rfl⟩
  superclass_named := rfl
  interfaces_named := ⟨Nat.zero_lt_succ _, .nil⟩
  fields_mean := ⟨Nat.zero_lt_succ _, .nil⟩
  methods_mean := ⟨Nat.zero_lt_succ _, .nil⟩
  attributes_mean := ⟨Nat.zero_lt_succ _, .nil⟩

/-- A text whose bytes fit into a text constant comes back from it. The constant is read up to its
last byte, whatever follows; in every accepted class file the text is told at the index of the
constant, and at the index of every class and string that refers to it; and there is such a
file. -/
theorem text_constants_round_trip (text : String) (bytes : Bytes)
    (hwritten : Text.WrittenAs text bytes) (hfits : bytes.length ≤ 65535) :
    (∀ index rest, PoolReader.constant index
        (1 :: (bigEndianBytes 2 bytes.length ++ bytes) ++ rest) = .ok (.utf8 text, rest))
      ∧ (∀ (raw : RawClass) (description : ClassDescription) (before after : List RawConstant),
        raw.constants = before ++ .text bytes :: after → raw.Means description →
        decode raw.bytes = .ok description
          ∧ description.pool.Tells (indexBehind before) text)
      ∧ ∃ (raw : RawClass) (description : ClassDescription),
        RawConstant.text bytes ∈ raw.constants ∧ raw.Means description := by
  refine ⟨fun index rest => ?_, ?_, textFile bytes, textDescription text, ?_, ?_⟩
  · exact PoolReader.constant_eq_ok_iff.2 ⟨.text bytes, hwritten.constantMeans hfits, rfl⟩
  · intro raw description before after hconstants hmeans
    have hsize : description.pool.size + 1 < 0x10000 := by
      rw [hmeans.size_pool]
      exact hmeans.slots_countable
    have hpool := hmeans.pool_means
    rw [hconstants] at hpool
    exact ⟨decode_eq_ok_iff_exists.2 ⟨raw, hmeans, rfl⟩,
      (hpool.holds_text hsize hwritten.decodeConstant?_eq).tells⟩
  · exact List.mem_cons_of_mem _ List.mem_cons_self
  · exact textFile_means hwritten hfits

/-- A text with a zero character and one beyond the basic plane, in modified UTF-8. -/
theorem zero_and_face_round_trip :
    Text.encodeModified "a\x00😀" = [0x61, 0xC0, 0x80, 0xED, 0xA0, 0xBD, 0xED, 0xB8, 0x80]
      ∧ decode (textFile (Text.encodeModified "a\x00😀")).bytes
        = .ok (textDescription "a\x00😀")
      ∧ (textDescription "a\x00😀").pool.utf8 3 = .ok "a\x00😀"
      ∧ (textDescription "a\x00😀").pool.className 4 = .ok "a\x00😀"
      ∧ (textDescription "a\x00😀").pool.string 5 = .ok "a\x00😀" := by
  have hbytes : Text.encodeModified "a\x00😀"
      = [0x61, 0xC0, 0x80, 0xED, 0xA0, 0xBD, 0xED, 0xB8, 0x80] := by
    decide +kernel
  have hfits : (Text.encodeModified "a\x00😀").length ≤ 65535 := by
    rw [hbytes]
    decide
  obtain ⟨hdecode, htells⟩ := (text_constants_round_trip "a\x00😀" _ (.inl rfl) hfits).2.1
    (textFile (Text.encodeModified "a\x00😀")) (textDescription "a\x00😀")
    [.entry (.long 7) rfl] _ rfl (textFile_means (.inl rfl) hfits)
  exact ⟨hbytes, hdecode, htells.utf8_eq, htells.className_eq 4 rfl, htells.string_eq 5 rfl⟩

end ClassAtlas
