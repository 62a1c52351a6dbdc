import ClassAtlas.Text.ModifiedUtf8
import Mathlib.Data.List.Basic

/-!
# Texts in bytes

A text constant may hold its text in modified or in plain UTF-8, and is read as plain UTF-8
first. Both forms are read back as the text they were written from. They are the same
unless the text has a zero character or one beyond the basic plane; and what such a
character is written as in modified UTF-8 is ill formed in plain UTF-8, so that the first
reading never gives the text another meaning.
-/

namespace ClassAtlas.Text

/-! ## Bytes as numbers -/

variable {a b c : UInt8} {code : Nat}

theorem toNat_byte {n : Nat} (h : n < 0x100) : (UInt8.ofNat n).toNat = n :=
  UInt8.toNat_ofNat_of_lt' h

theorem isAscii_iff : a < 0x80 ↔ a.toNat < 0x80 :=
  UInt8.lt_iff_toNat_lt

theorem isContinuation_iff : isContinuation b = true ↔ 0x80 ≤ b.toNat ∧ b.toNat ≤ 0xBF := by
  simp [isContinuation, UInt8.le_iff_toNat_le]

theorem leadsTwo_iff : leadsTwo a = true ↔ 0xC2 ≤ a.toNat ∧ a.toNat ≤ 0xDF := by
  simp [leadsTwo, UInt8.le_iff_toNat_le]

theorem leadsThree_iff : leadsThree a = true ↔ 0xE0 ≤ a.toNat ∧ a.toNat ≤ 0xEF := by
  simp [leadsThree, UInt8.le_iff_toNat_le]

theorem leadsFour_iff : leadsFour a = true ↔ 0xF0 ≤ a.toNat ∧ a.toNat ≤ 0xF4 := by
  simp [leadsFour, UInt8.le_iff_toNat_le]

/-- The bytes that may follow a lead, by their value: any continuation, but for the leads of codes
that are written too long, are surrogates or lie beyond the last one. -/
theorem mayFollow_iff : mayFollow a b = true ↔ (0x80 ≤ b.toNat ∧ b.toNat ≤ 0xBF)
    ∧ (a.toNat = 0xE0 → 0xA0 ≤ b.toNat) ∧ (a.toNat = 0xED → b.toNat ≤ 0x9F)
    ∧ (a.toNat = 0xF0 → 0x90 ≤ b.toNat) ∧ (a.toNat = 0xF4 → b.toNat ≤ 0x8F) := by
  unfold mayFollow
  simp only [← UInt8.toNat_inj]
  split_ifs <;> simp_all [isContinuation_iff, UInt8.le_iff_toNat_le] <;> omega

/-- The two bytes of a code below `0x800`. -/
def twoBytes (code : Nat) : List UInt8 :=
  [UInt8.ofNat (0xC0 + code / 0x40), UInt8.ofNat (0x80 + code % 0x40)]

/-- The four bytes of a code from `0x10000` on. -/
def fourBytes (code : Nat) : List UInt8 :=
  [UInt8.ofNat (0xF0 + code / 0x40000), UInt8.ofNat (0x80 + code / 0x1000 % 0x40),
    UInt8.ofNat (0x80 + code / 0x40 % 0x40), UInt8.ofNat (0x80 + code % 0x40)]

/-- Characters are below the end of the code space. -/
theorem toNat_lt (c : Char) : c.toNat < 0x110000 := by
  have hvalid : c.toNat < 0xD800 ∨ 0xDFFF < c.toNat ∧ c.toNat < 0x110000 := c.valid
  omega

/-- Plain UTF-8 writes a character in one to four bytes, by its code. -/
theorem utf8EncodeChar_eq (c : Char) :
    String.utf8EncodeChar c
      = if c.toNat < 0x80 then [UInt8.ofNat c.toNat]
        else if c.toNat < 0x800 then twoBytes c.toNat
        else if c.toNat < 0x10000 then threeBytes c.toNat
        else fourBytes c.toNat := by
  have hcode := toNat_lt c
  unfold String.utf8EncodeChar twoBytes threeBytes fourBytes
  rw [Char.toNat_val]
  generalize c.toNat = code at hcode ⊢
  by_cases hone : code < 0x80
  · rw [if_pos hone, if_pos (by omega)]
  by_cases htwo : code < 0x800
  · have hlead : code / 64 % 32 + 192 = 0xC0 + code / 0x40 := by omega
    have hlast : code % 64 + 128 = 0x80 + code % 0x40 := by omega
    rw [if_neg hone, if_pos htwo, if_neg (by omega), if_pos (by omega), hlead, hlast]
  by_cases hthree : code < 0x10000
  · have hlead : code / 4096 % 16 + 224 = 0xE0 + code / 0x1000 := by omega
    have hmiddle : code / 64 % 64 + 128 = 0x80 + code / 0x40 % 0x40 := by omega
    have hlast : code % 64 + 128 = 0x80 + code % 0x40 := by omega
    rw [if_neg hone, if_neg htwo, if_pos hthree, if_neg (by omega), if_neg (by omega),
      if_pos (by omega), hlead, hmiddle, hlast]
  · have hlead : code / 262144 % 8 + 240 = 0xF0 + code / 0x40000 := by omega
    have hsecond : code / 4096 % 64 + 128 = 0x80 + code / 0x1000 % 0x40 := by omega
    have hthird : code / 64 % 64 + 128 = 0x80 + code / 0x40 % 0x40 := by omega
    have hlast : code % 64 + 128 = 0x80 + code % 0x40 := by omega
    rw [if_neg hone, if_neg htwo, if_neg hthree, if_neg (by omega), if_neg (by omega),
      if_neg (by omega), hlead, hsecond, hthird, hlast]

/-- Modified UTF-8 differs for the zero character and beyond the basic plane. -/
theorem encodeModifiedChar_eq_utf8EncodeChar {c : Char} (hzero : c.toNat ≠ 0)
    (hbasic : c.toNat < 0x10000) : encodeModifiedChar c = String.utf8EncodeChar c := by
  rw [utf8EncodeChar_eq]
  simp only [encodeModifiedChar, if_neg hzero, if_pos hbasic, twoBytes]

/-- The first surrogate of a code beyond the basic plane. -/
def highSurrogate (code : Nat) : Nat :=
  0xD800 + (code - 0x10000) / 0x400

/-- The second surrogate of a code beyond the basic plane. -/
def lowSurrogate (code : Nat) : Nat :=
  0xDC00 + (code - 0x10000) % 0x400

/-- The modified encoding writes the zero character in two bytes. -/
theorem encodeModifiedChar_of_zero {c : Char} (h : c.toNat = 0) :
    encodeModifiedChar c = [0xC0, 0x80] := by
  unfold encodeModifiedChar
  exact if_pos h

/-- The modified encoding writes a supplementary character as two surrogates of three bytes each. -/
theorem encodeModifiedChar_of_supplementary {c : Char} (h : 0x10000 ≤ c.toNat) :
    encodeModifiedChar c
      = threeBytes (highSurrogate c.toNat) ++ threeBytes (lowSurrogate c.toNat) := by
  unfold encodeModifiedChar highSurrogate lowSurrogate
  generalize c.toNat = code at h ⊢
  simp only [if_neg (by omega : ¬ code = 0), if_neg (by omega : ¬ code < 0x80),
    if_neg (by omega : ¬ code < 0x800), if_neg (by omega : ¬ code < 0x10000)]

/-! ## Codes in bytes -/

/-- The lower bits of a code go into a continuation byte. -/
theorem isContinuation_byte (n : Nat) : isContinuation (UInt8.ofNat (0x80 + n % 0x40)) = true := by
  rw [isContinuation_iff, toNat_byte (by omega)]
  omega

/-- A continuation byte gives back the bits that went into it. -/
theorem continuationBits_byte (n : Nat) :
    continuationBits (UInt8.ofNat (0x80 + n % 0x40)) = n % 0x40 := by
  have hbyte : (UInt8.ofNat (0x80 + n % 0x40)).toNat = 0x80 + n % 0x40 := toNat_byte (by omega)
  unfold continuationBits
  omega

/-- Two bytes give back the code that they were made of. -/
theorem twoByteChar_bytes (h : code < 0x800) :
    twoByteChar (UInt8.ofNat (0xC0 + code / 0x40)) (UInt8.ofNat (0x80 + code % 0x40))
      = Char.ofNat code := by
  have hcode : (0xC0 + code / 0x40 - 0xC0) * 64 + code % 0x40 = code := by omega
  rw [twoByteChar, continuationBits_byte, toNat_byte (by omega), hcode]

/-- Three bytes give back the code that they were made of. -/
theorem threeByteCode_bytes (h : code < 0x10000) :
    threeByteCode (UInt8.ofNat (0xE0 + code / 0x1000)) (UInt8.ofNat (0x80 + code / 0x40 % 0x40))
      (UInt8.ofNat (0x80 + code % 0x40)) = code := by
  rw [threeByteCode, continuationBits_byte, continuationBits_byte, toNat_byte (by omega)]
  omega

/-- Four bytes give back the code that they were made of. -/
theorem fourByteChar_bytes (h : code < 0x110000) :
    fourByteChar (UInt8.ofNat (0xF0 + code / 0x40000)) (UInt8.ofNat (0x80 + code / 0x1000 % 0x40))
      (UInt8.ofNat (0x80 + code / 0x40 % 0x40)) (UInt8.ofNat (0x80 + code % 0x40))
      = Char.ofNat code := by
  have hcode : (((0xF0 + code / 0x40000 - 0xF0) * 64 + code / 0x1000 % 0x40) * 64
      + code / 0x40 % 0x40) * 64 + code % 0x40 = code := by omega
  rw [fourByteChar, continuationBits_byte, continuationBits_byte, continuationBits_byte,
    toNat_byte (by omega), hcode]

/-! ## Lead bytes -/

/-- The lead byte of two bytes leads two, and nothing else. -/
theorem leads_twoBytes (hlow : 0x80 ≤ code) (hhigh : code < 0x800) :
    ¬ UInt8.ofNat (0xC0 + code / 0x40) < 0x80 ∧ UInt8.ofNat (0xC0 + code / 0x40) ≠ 0xC0
      ∧ leadsTwo (UInt8.ofNat (0xC0 + code / 0x40)) = true := by
  rw [isAscii_iff, Ne, ← UInt8.toNat_inj, leadsTwo_iff, toNat_byte (by omega)]
  change _ ∧ 0xC0 + code / 0x40 ≠ 0xC0 ∧ _
  omega

/-- The lead byte of three bytes leads three, and nothing else. -/
theorem leads_threeBytes (hhigh : code < 0x10000) :
    ¬ UInt8.ofNat (0xE0 + code / 0x1000) < 0x80 ∧ UInt8.ofNat (0xE0 + code / 0x1000) ≠ 0xC0
      ∧ leadsTwo (UInt8.ofNat (0xE0 + code / 0x1000)) = false
      ∧ leadsThree (UInt8.ofNat (0xE0 + code / 0x1000)) = true := by
  rw [isAscii_iff, Ne, ← UInt8.toNat_inj, ← Bool.not_eq_true, leadsTwo_iff, leadsThree_iff,
    toNat_byte (by omega)]
  change _ ∧ 0xE0 + code / 0x1000 ≠ 0xC0 ∧ _
  omega

/-- Of the codes from `0x800` on, only surrogates have a second byte that may not follow the lead
byte. -/
theorem mayFollow_threeBytes_iff (hlow : 0x800 ≤ code) (hhigh : code < 0x10000) :
    mayFollow (UInt8.ofNat (0xE0 + code / 0x1000)) (UInt8.ofNat (0x80 + code / 0x40 % 0x40)) = true
      ↔ code < 0xD800 ∨ 0xDFFF < code := by
  rw [mayFollow_iff, toNat_byte (by omega), toNat_byte (by omega)]
  omega

/-- The first of four bytes is a lead of four, and the second may follow it. -/
theorem leads_fourBytes (hlow : 0x10000 ≤ code) (hhigh : code < 0x110000) :
    ¬ UInt8.ofNat (0xF0 + code / 0x40000) < 0x80
      ∧ leadsTwo (UInt8.ofNat (0xF0 + code / 0x40000)) = false
      ∧ leadsThree (UInt8.ofNat (0xF0 + code / 0x40000)) = false
      ∧ leadsFour (UInt8.ofNat (0xF0 + code / 0x40000)) = true
      ∧ mayFollow (UInt8.ofNat (0xF0 + code / 0x40000))
        (UInt8.ofNat (0x80 + code / 0x1000 % 0x40)) = true := by
  rw [isAscii_iff, ← Bool.not_eq_true, ← Bool.not_eq_true, leadsTwo_iff, leadsThree_iff,
    leadsFour_iff, mayFollow_iff, toNat_byte (by omega), toNat_byte (by omega)]
  omega

/-! ## Reading plain UTF-8 -/

section Plain

variable {read : List (Option Char)} {rest : List UInt8}

/-- How plain UTF-8 is read: character by character, where a byte that cannot begin one is ill
formed. -/
structure PlainSteps (scan : List (Option Char) → List UInt8 → List (Option Char)) : Prop where
  /-- Nothing is left. -/
  nil : ∀ read, scan read [] = read.reverse
  /-- A byte stands for itself. -/
  one : ∀ {read a rest}, a < 0x80 →
    scan read (a :: rest) = scan (some (Char.ofNat a.toNat) :: read) rest
  /-- Two bytes are a character. -/
  two : ∀ {read a b rest}, ¬ a < 0x80 → leadsTwo a = true → isContinuation b = true →
    scan read (a :: b :: rest) = scan (some (twoByteChar a b) :: read) rest
  /-- Three bytes are a character. -/
  three : ∀ {read a b c rest}, ¬ a < 0x80 → leadsTwo a = false → leadsThree a = true →
    mayFollow a b = true → isContinuation c = true →
    scan read (a :: b :: c :: rest) = scan (some (Char.ofNat (threeByteCode a b c)) :: read) rest
  /-- Four bytes are a character. -/
  four : ∀ {read a b c d rest}, ¬ a < 0x80 → leadsTwo a = false → leadsThree a = false →
    leadsFour a = true → mayFollow a b = true → isContinuation c = true →
    isContinuation d = true →
    scan read (a :: b :: c :: d :: rest) = scan (some (fourByteChar a b c d) :: read) rest
  /-- A byte that leads nothing, or is followed by none that may follow, is ill formed. -/
  illFormed : ∀ {read a b rest}, ¬ a < 0x80 → leadsTwo a = false →
    (leadsThree a && mayFollow a b) = false → (leadsFour a && mayFollow a b) = false →
    scan read (a :: b :: rest) = scan (none :: read) (b :: rest)

/-- The plain reader goes on character by character. -/
theorem scalarsBehind_steps : PlainSteps scalarsBehind where
  nil := by
    intro read
    rw [scalarsBehind.eq_def]
  one := by
    intro read a rest hascii
    rw [scalarsBehind.eq_def]
    simp only [if_pos hascii]
  two := by
    intro read a b rest hmultiple hlead hlast
    rw [scalarsBehind.eq_def]
    simp only [if_neg hmultiple, hlead, hlast, Bool.and_self, if_true]
  three := by
    intro read a b c rest hmultiple htwo hlead hsecond hlast
    rw [scalarsBehind.eq_def]
    simp only [if_neg hmultiple, htwo, hlead, hsecond, hlast, Bool.false_and, Bool.and_self,
      Bool.false_eq_true, if_false, if_true]
  four := by
    intro read a b c d rest hmultiple htwo hthree hlead hsecond hthird hlast
    rw [scalarsBehind.eq_def]
    simp only [if_neg hmultiple, htwo, hthree, hlead, hsecond, hthird, hlast, Bool.false_and,
      Bool.and_self, Bool.false_eq_true, if_false, if_true]
  illFormed := by
    intro read a b rest hmultiple htwo hthree hfour
    rw [scalarsBehind.eq_def]
    simp only [if_neg hmultiple, htwo, hthree, hfour, Bool.false_and, Bool.false_eq_true, if_false]

/-- The plain reader takes a single byte for its character. -/
theorem scalarsBehind_oneByte (h : code < 0x80) :
    scalarsBehind read (UInt8.ofNat code :: rest)
      = scalarsBehind (some (Char.ofNat code) :: read) rest := by
  have hbyte : (UInt8.ofNat code).toNat = code := toNat_byte (by omega)
  have hascii : UInt8.ofNat code < 0x80 := by
    rw [isAscii_iff, hbyte]
    exact h
  rw [scalarsBehind_steps.one hascii, hbyte]

/-- The plain reader takes two bytes for their character. -/
theorem scalarsBehind_twoBytes (hlow : 0x80 ≤ code) (hhigh : code < 0x800) :
    scalarsBehind read (twoBytes code ++ rest)
      = scalarsBehind (some (Char.ofNat code) :: read) rest := by
  obtain ⟨hmultiple, _, hlead⟩ := leads_twoBytes hlow hhigh
  rw [twoBytes, List.cons_append, List.cons_append, List.nil_append,
    scalarsBehind_steps.two hmultiple hlead (isContinuation_byte code), twoByteChar_bytes hhigh]

/-- The plain reader takes three bytes for their character, unless this is a surrogate. -/
theorem scalarsBehind_threeBytes (hlow : 0x800 ≤ code) (hhigh : code < 0x10000)
    (hscalar : code < 0xD800 ∨ 0xDFFF < code) :
    scalarsBehind read (threeBytes code ++ rest)
      = scalarsBehind (some (Char.ofNat code) :: read) rest := by
  obtain ⟨hmultiple, _, htwo, hlead⟩ := leads_threeBytes hhigh
  have hsecond := (mayFollow_threeBytes_iff hlow hhigh).2 hscalar
  rw [threeBytes, List.cons_append, List.cons_append, List.cons_append, List.nil_append,
    scalarsBehind_steps.three hmultiple htwo hlead hsecond (isContinuation_byte code),
    threeByteCode_bytes hhigh]

/-- The plain reader takes four bytes for their character. -/
theorem scalarsBehind_fourBytes (hlow : 0x10000 ≤ code) (hhigh : code < 0x110000) :
    scalarsBehind read (fourBytes code ++ rest)
      = scalarsBehind (some (Char.ofNat code) :: read) rest := by
  obtain ⟨hmultiple, htwo, hthree, hlead, hsecond⟩ := leads_fourBytes hlow hhigh
  rw [fourBytes, List.cons_append, List.cons_append, List.cons_append, List.cons_append,
    List.nil_append, scalarsBehind_steps.four hmultiple htwo hthree hlead hsecond
      (isContinuation_byte (code / 0x40)) (isContinuation_byte code), fourByteChar_bytes hhigh]

/-- A character in plain UTF-8 is read as itself. -/
theorem scalarsBehind_utf8EncodeChar (c : Char) :
    scalarsBehind read (String.utf8EncodeChar c ++ rest) = scalarsBehind (some c :: read) rest := by
  have hvalid : c.toNat < 0xD800 ∨ 0xDFFF < c.toNat ∧ c.toNat < 0x110000 := c.valid
  rw [utf8EncodeChar_eq]
  conv_rhs => rw [← Char.ofNat_toNat c]
  generalize c.toNat = code at hvalid ⊢
  split_ifs with hone htwo hthree
  · exact scalarsBehind_oneByte hone
  · exact scalarsBehind_twoBytes (by omega) htwo
  · exact scalarsBehind_threeBytes (by omega) hthree (by omega)
  · exact scalarsBehind_fourBytes (by omega) (by omega)

/-- An ill-formed stretch stays one, whatever follows. -/
theorem none_mem_scalarsBehind (h : none ∈ read) (bytes : List UInt8) :
    none ∈ scalarsBehind read bytes := by
  fun_induction scalarsBehind read bytes with
  | case1 => exact List.mem_reverse.2 h
  | _ => simp_all

/-- The first byte of a surrogate is the same for all. -/
theorem leadByte_of_surrogate (hlow : 0xD800 ≤ code) (hhigh : code ≤ 0xDFFF) :
    UInt8.ofNat (0xE0 + code / 0x1000) = 0xED := by
  have hlead : code / 0x1000 = 0xD := by omega
  rw [hlead]
  rfl

/-- No surrogate is a character of plain UTF-8. -/
theorem none_mem_scalarsBehind_surrogate (hlow : 0xD800 ≤ code) (hhigh : code ≤ 0xDFFF) :
    none ∈ scalarsBehind read (threeBytes code ++ rest) := by
  have hlead := leadByte_of_surrogate hlow hhigh
  have hmultiple : ¬ (0xED : UInt8) < 0x80 := by decide
  have htwo : leadsTwo 0xED = false := by decide
  have hsecond : mayFollow 0xED (UInt8.ofNat (0x80 + code / 0x40 % 0x40)) = false := by
    rw [← Bool.not_eq_true, ← hlead, mayFollow_threeBytes_iff (by omega) (by omega)]
    omega
  rw [threeBytes, hlead, List.cons_append, List.cons_append,
    scalarsBehind_steps.illFormed hmultiple htwo (by rw [hsecond, Bool.and_false])
      (by rw [hsecond, Bool.and_false])]
  exact none_mem_scalarsBehind List.mem_cons_self _

/-- What modified UTF-8 writes in a way of its own is ill formed in plain UTF-8. -/
theorem none_mem_scalarsBehind_encodeModifiedChar {c : Char}
    (h : c.toNat = 0 ∨ 0x10000 ≤ c.toNat) :
    none ∈ scalarsBehind read (encodeModifiedChar c ++ rest) := by
  rcases h with hzero | hsupplementary
  · have hstep : scalarsBehind read (0xC0 :: 0x80 :: rest)
        = scalarsBehind (none :: read) (0x80 :: rest) :=
      scalarsBehind_steps.illFormed (by decide) (by decide) (by decide) (by decide)
    rw [encodeModifiedChar_of_zero hzero, List.cons_append, List.cons_append, List.nil_append,
      hstep]
    exact none_mem_scalarsBehind List.mem_cons_self _
  · have hcode : c.toNat < 0x110000 := toNat_lt c
    rw [encodeModifiedChar_of_supplementary hsupplementary, List.append_assoc]
    unfold highSurrogate
    exact none_mem_scalarsBehind_surrogate (by omega) (by omega)

end Plain

/-! ## Reading modified UTF-8 -/

section Modified

variable {read : List Char} {rest : List UInt8}

/-- How modified UTF-8 is read where it is well formed: as plain UTF-8, but for the zero character
and for pairs of surrogates. -/
structure ModifiedSteps (scan : List Char → List UInt8 → Option (List Char)) : Prop where
  /-- Nothing is left. -/
  nil : ∀ read, scan read [] = some read.reverse
  /-- A byte other than zero stands for itself. -/
  one : ∀ {read a rest}, a < 0x80 → a ≠ 0 →
    scan read (a :: rest) = scan (Char.ofNat a.toNat :: read) rest
  /-- Two bytes are the zero character. -/
  zero : ∀ {read rest}, scan read (0xC0 :: 0x80 :: rest) = scan (Char.ofNat 0 :: read) rest
  /-- Two bytes are a character. -/
  two : ∀ {read a b rest}, ¬ a < 0x80 → a ≠ 0xC0 → leadsTwo a = true → isContinuation b = true →
    scan read (a :: b :: rest) = scan (twoByteChar a b :: read) rest
  /-- Three bytes are a character. -/
  three : ∀ {read a b c rest}, ¬ a < 0x80 → a ≠ 0xC0 → leadsTwo a = false → leadsThree a = true →
    mayFollow a b = true → isContinuation c = true →
    scan read (a :: b :: c :: rest) = scan (Char.ofNat (threeByteCode a b c) :: read) rest
  /-- Two surrogates of three bytes each are a character. -/
  pair : ∀ {read b c e f rest}, 0xA0 ≤ b ∧ b ≤ 0xAF → isContinuation c = true →
    0xB0 ≤ e ∧ e ≤ 0xBF → isContinuation f = true →
    scan read (0xED :: b :: c :: 0xED :: e :: f :: rest)
      = scan (surrogatePairChar (threeByteCode 0xED b c) (threeByteCode 0xED e f) :: read) rest

/-- The modified reader goes on character by character. -/
theorem modifiedBehind_steps : ModifiedSteps modifiedBehind where
  nil := by
    intro read
    rw [modifiedBehind.eq_def]
  one := by
    intro read a rest hascii hnonzero
    rw [modifiedBehind.eq_def]
    simp only [if_pos hascii, if_neg hnonzero]
  zero := by
    intro read rest
    rw [modifiedBehind.eq_def]
    rfl
  two := by
    intro read a b rest hmultiple hnotZero hlead hlast
    rw [modifiedBehind.eq_def]
    simp only [if_neg hmultiple, if_neg hnotZero, hlead, hlast, if_true]
  three := by
    intro read a b c rest hmultiple hnotZero htwo hlead hsecond hlast
    rw [modifiedBehind.eq_def]
    simp only [if_neg hmultiple, if_neg hnotZero, htwo, hlead, hsecond, hlast, Bool.not_true,
      Bool.false_eq_true, if_false, if_true]
  pair := by
    intro read b c e f rest hfirst hfirstLast hsecond hsecondLast
    have hmultiple : ¬ (0xED : UInt8) < 0x80 := by decide
    have hnotZero : ¬ (0xED : UInt8) = 0xC0 := by decide
    have htwo : leadsTwo 0xED = false := by decide
    have hlead : leadsThree 0xED = true := by decide
    have hnot : mayFollow 0xED b = false := by
      have hbound : 0xA0 ≤ b.toNat := UInt8.le_iff_toNat_le.1 hfirst.1
      rw [← Bool.not_eq_true, mayFollow_iff]
      exact fun h => absurd (h.2.2.1 rfl) (by omega)
    rw [modifiedBehind.eq_def]
    simp only [if_neg hmultiple, if_neg hnotZero, htwo, hlead, hnot, hfirstLast, hsecondLast,
      decide_eq_true hfirst.1, decide_eq_true hfirst.2, decide_eq_true hsecond.1,
      decide_eq_true hsecond.2, decide_true, Bool.and_self, Bool.not_true, Bool.false_eq_true,
      if_false, if_true]

/-- The modified reader takes a single byte for its character, unless it is zero. -/
theorem modifiedBehind_oneByte (hzero : code ≠ 0) (h : code < 0x80) :
    modifiedBehind read (UInt8.ofNat code :: rest)
      = modifiedBehind (Char.ofNat code :: read) rest := by
  have hbyte : (UInt8.ofNat code).toNat = code := toNat_byte (by omega)
  have hascii : UInt8.ofNat code < 0x80 := by
    rw [isAscii_iff, hbyte]
    exact h
  have hnonzero : UInt8.ofNat code ≠ 0 := by
    rw [Ne, ← UInt8.toNat_inj, hbyte]
    exact hzero
  rw [modifiedBehind_steps.one hascii hnonzero, hbyte]

/-- The modified reader takes two bytes for their character. -/
theorem modifiedBehind_twoBytes (hlow : 0x80 ≤ code) (hhigh : code < 0x800) :
    modifiedBehind read (twoBytes code ++ rest)
      = modifiedBehind (Char.ofNat code :: read) rest := by
  obtain ⟨hmultiple, hnotZero, hlead⟩ := leads_twoBytes hlow hhigh
  rw [twoBytes, List.cons_append, List.cons_append, List.nil_append,
    modifiedBehind_steps.two hmultiple hnotZero hlead (isContinuation_byte code),
    twoByteChar_bytes hhigh]

/-- The modified reader takes three bytes for their character, unless this is a surrogate. -/
theorem modifiedBehind_threeBytes (hlow : 0x800 ≤ code) (hhigh : code < 0x10000)
    (hscalar : code < 0xD800 ∨ 0xDFFF < code) :
    modifiedBehind read (threeBytes code ++ rest)
      = modifiedBehind (Char.ofNat code :: read) rest := by
  obtain ⟨hmultiple, hnotZero, htwo, hlead⟩ := leads_threeBytes hhigh
  have hsecond := (mayFollow_threeBytes_iff hlow hhigh).2 hscalar
  rw [threeBytes, List.cons_append, List.cons_append, List.cons_append, List.nil_append,
    modifiedBehind_steps.three hmultiple hnotZero htwo hlead hsecond (isContinuation_byte code),
    threeByteCode_bytes hhigh]

/-- Bounds of the second byte of a code, as bounds of a byte. -/
theorem secondByte_bounds {low high : UInt8} (hlow : low.toNat ≤ 0x80 + code / 0x40 % 0x40)
    (hhigh : 0x80 + code / 0x40 % 0x40 ≤ high.toNat) :
    low ≤ UInt8.ofNat (0x80 + code / 0x40 % 0x40)
      ∧ UInt8.ofNat (0x80 + code / 0x40 % 0x40) ≤ high := by
  rw [UInt8.le_iff_toNat_le, UInt8.le_iff_toNat_le, toNat_byte (by omega)]
  exact ⟨hlow, hhigh⟩

/-- The modified reader takes a high and a low surrogate for one supplementary character. -/
theorem modifiedBehind_surrogates {high low : Nat} (hhigh : 0xD800 ≤ high ∧ high ≤ 0xDBFF)
    (hlow : 0xDC00 ≤ low ∧ low ≤ 0xDFFF) :
    modifiedBehind read (threeBytes high ++ (threeBytes low ++ rest))
      = modifiedBehind (surrogatePairChar high low :: read) rest := by
  have hfirstLead : UInt8.ofNat (0xE0 + high / 0x1000) = 0xED :=
    leadByte_of_surrogate (by omega) (by omega)
  have hfirst : 0xA0 ≤ UInt8.ofNat (0x80 + high / 0x40 % 0x40)
      ∧ UInt8.ofNat (0x80 + high / 0x40 % 0x40) ≤ 0xAF :=
    secondByte_bounds (show 0xA0 ≤ _ by omega) (show _ ≤ 0xAF by omega)
  have hsecondLead : UInt8.ofNat (0xE0 + low / 0x1000) = 0xED :=
    leadByte_of_surrogate (by omega) (by omega)
  have hsecond : 0xB0 ≤ UInt8.ofNat (0x80 + low / 0x40 % 0x40)
      ∧ UInt8.ofNat (0x80 + low / 0x40 % 0x40) ≤ 0xBF :=
    secondByte_bounds (show 0xB0 ≤ _ by omega) (show _ ≤ 0xBF by omega)
  have hhighCode := threeByteCode_bytes (show high < 0x10000 by omega)
  have hlowCode := threeByteCode_bytes (show low < 0x10000 by omega)
  rw [hfirstLead] at hhighCode
  rw [hsecondLead] at hlowCode
  rw [threeBytes, threeBytes, hfirstLead, hsecondLead]
  simp only [List.cons_append, List.nil_append]
  rw [modifiedBehind_steps.pair hfirst (isContinuation_byte high) hsecond
    (isContinuation_byte low), hhighCode, hlowCode]

/-- A character in modified UTF-8 is read as itself. -/
theorem modifiedBehind_encodeModifiedChar (c : Char) :
    modifiedBehind read (encodeModifiedChar c ++ rest) = modifiedBehind (c :: read) rest := by
  have hvalid : c.toNat < 0xD800 ∨ 0xDFFF < c.toNat ∧ c.toNat < 0x110000 := c.valid
  by_cases hzero : c.toNat = 0
  · have hchar : Char.ofNat 0 = c := by rw [← hzero, Char.ofNat_toNat]
    rw [encodeModifiedChar_of_zero hzero, ← hchar]
    exact modifiedBehind_steps.zero
  by_cases hbasic : c.toNat < 0x10000
  · rw [encodeModifiedChar_eq_utf8EncodeChar hzero hbasic, utf8EncodeChar_eq, if_pos hbasic]
    conv_rhs => rw [← Char.ofNat_toNat c]
    generalize c.toNat = code at hvalid hzero hbasic ⊢
    split_ifs with hone htwo
    · exact modifiedBehind_oneByte hzero hone
    · exact modifiedBehind_twoBytes (by omega) htwo
    · exact modifiedBehind_threeBytes (by omega) hbasic (by omega)
  · have hpair : surrogatePairChar (highSurrogate c.toNat) (lowSurrogate c.toNat) = c := by
      have hcode : 0x10000 + (highSurrogate c.toNat - 0xD800) * 0x400
          + (lowSurrogate c.toNat - 0xDC00) = c.toNat := by
        unfold highSurrogate lowSurrogate
        omega
      rw [surrogatePairChar, hcode, Char.ofNat_toNat]
    rw [encodeModifiedChar_of_supplementary (by omega), List.append_assoc,
      modifiedBehind_surrogates, hpair]
    · unfold highSurrogate
      omega
    · unfold lowSurrogate
      omega

end Modified

/-! ## Whole texts -/

/-- The plain reader gives back a text from its plain encoding, behind what was read before. -/
theorem scalarsBehind_flatMap_utf8EncodeChar (read : List (Option Char)) (text : List Char) :
    scalarsBehind read (text.flatMap String.utf8EncodeChar) = read.reverse ++ text.map some := by
  induction text generalizing read with
  | nil => rw [List.flatMap_nil, scalarsBehind_steps.nil, List.map_nil, List.append_nil]
  | cons c text ih =>
    rw [List.flatMap_cons, scalarsBehind_utf8EncodeChar, ih, List.reverse_cons, List.map_cons,
      List.append_assoc, List.singleton_append]

/-- Plain UTF-8 is read back. -/
theorem decodeUtf8?_encodeUtf8 (text : String) : decodeUtf8? (encodeUtf8 text) = some text := by
  have hscalars : scalars (encodeUtf8 text) = text.toList.map some :=
    scalarsBehind_flatMap_utf8EncodeChar [] text.toList
  rw [decodeUtf8?]
  simp [hscalars]

/-- The modified reader gives back a text from its modified encoding, behind what was read before.
-/
theorem modifiedBehind_flatMap_encodeModifiedChar (read text : List Char) :
    modifiedBehind read (text.flatMap encodeModifiedChar) = some (read.reverse ++ text) := by
  induction text generalizing read with
  | nil => rw [List.flatMap_nil, modifiedBehind_steps.nil, List.append_nil]
  | cons c text ih =>
    rw [List.flatMap_cons, modifiedBehind_encodeModifiedChar, ih, List.reverse_cons,
      List.append_assoc, List.singleton_append]

/-- Modified UTF-8 is read back. -/
theorem decodeModified?_encodeModified (text : String) :
    decodeModified? (encodeModified text) = some text := by
  rw [decodeModified?, encodeModified, modifiedBehind_flatMap_encodeModifiedChar,
    Option.map_some, List.reverse_nil, List.nil_append, String.ofList_toList]

/-- The two forms of a text are the same, or the modified one is ill formed in plain UTF-8. The
induction is on the text; up to the first character that modified UTF-8 writes in a way of its
own, both forms are the same. -/
theorem flatMap_encodeModifiedChar_cases (read : List (Option Char)) (text : List Char) :
    text.flatMap encodeModifiedChar = text.flatMap String.utf8EncodeChar
      ∨ none ∈ scalarsBehind read (text.flatMap encodeModifiedChar) := by
  induction text generalizing read with
  | nil => exact .inl rfl
  | cons c text ih =>
    rw [List.flatMap_cons, List.flatMap_cons]
    by_cases hown : c.toNat = 0 ∨ 0x10000 ≤ c.toNat
    · exact .inr (none_mem_scalarsBehind_encodeModifiedChar hown)
    · obtain ⟨hzero, hbasic⟩ := not_or.1 hown
      rw [encodeModifiedChar_eq_utf8EncodeChar hzero (Nat.lt_of_not_le hbasic),
        scalarsBehind_utf8EncodeChar]
      exact (ih (some c :: read)).imp_left (congrArg _)

/-- A text in plain UTF-8 is read as the text. -/
theorem decodeConstant?_encodeUtf8 (text : String) :
    decodeConstant? (encodeUtf8 text) = some text := by
  rw [decodeConstant?, decodeUtf8?_encodeUtf8]

/-- A text in modified UTF-8 is read as the text, though it is read as plain UTF-8 first. -/
theorem decodeConstant?_encodeModified (text : String) :
    decodeConstant? (encodeModified text) = some text := by
  rcases flatMap_encodeModifiedChar_cases [] text.toList with hsame | hillFormed
  · have hplain : encodeModified text = encodeUtf8 text := hsame
    rw [hplain, decodeConstant?_encodeUtf8]
  · have hnotPlain : decodeUtf8? (encodeModified text) = none := by
      have hfails : (scalars (encodeModified text)).all Option.isSome = false := by
        rw [List.all_eq_false]
        exact ⟨none, hillFormed, nofun⟩
      rw [decodeUtf8?]
      simp [hfails]
    rw [decodeConstant?, hnotPlain, decodeModified?_encodeModified]

end ClassAtlas.Text
