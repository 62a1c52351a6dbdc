import ClassAtlas.ClassFile.Reader
import ClassAtlas.Proofs.ClassFile.RawClass
import Mathlib.Data.List.Forall2
import Mathlib.Data.List.Induction

/-!
# What readers accept

A reader succeeds on exactly those byte strings that start with the bytes of a
value, and leaves behind what follows them. The statements below say so for each
reader of numbers and for each way of putting readers together, so that the
accepted bytes of a larger reader can be computed from those of its parts.
-/

namespace ClassAtlas

/-! ## Numbers in bytes -/

@[simp] theorem length_bigEndianBytes (width value : Nat) :
    (bigEndianBytes width value).length = width := by
  induction width generalizing value with
  | zero => rfl
  | succ width ih => rw [bigEndianBytes, List.length_append, ih, List.length_singleton]

@[simp] theorem length_u2Bytes (value : UInt16) : (u2Bytes value).length = 2 :=
  length_bigEndianBytes 2 value.toNat

namespace Reader

/-- A further byte moves the value of those before it up. -/
theorem bigEndian_append_singleton (bytes : Bytes) (last : UInt8) :
    bigEndian (bytes ++ [last]) = bigEndian bytes * 0x100 + last.toNat := by
  rw [bigEndian, List.foldl_append]
  rfl

/-- Reading a written number gives the number back, up to the width. -/
theorem bigEndian_bigEndianBytes (width value : Nat) :
    bigEndian (bigEndianBytes width value) = value % 0x100 ^ width := by
  induction width generalizing value with
  | zero => rw [Nat.pow_zero, Nat.mod_one]; rfl
  | succ width ih =>
    have hlast : (UInt8.ofNat value).toNat = value % 0x100 := UInt8.toNat_ofNat'
    rw [bigEndianBytes, bigEndian_append_singleton, ih, hlast, Nat.pow_succ,
      Nat.mul_comm (0x100 ^ width) 0x100, Nat.mod_mul]
    omega

/-- Writing the number of some bytes gives the bytes back. -/
theorem bigEndianBytes_bigEndian (bytes : Bytes) :
    bigEndianBytes bytes.length (bigEndian bytes) = bytes := by
  induction bytes using List.reverseRecOn with
  | nil => rfl
  | append_singleton bytes last ih =>
    have hlast := last.toNat_lt
    have hdiv : (bigEndian bytes * 0x100 + last.toNat) / 0x100 = bigEndian bytes := by omega
    have hmod : UInt8.ofNat (bigEndian bytes * 0x100 + last.toNat) = last := by
      apply UInt8.toNat_inj.1
      rw [UInt8.toNat_ofNat']
      omega
    rw [List.length_append, List.length_singleton, bigEndianBytes, bigEndian_append_singleton,
      hdiv, hmod, ih]

/-- The number of some bytes is bounded by their count. -/
theorem bigEndian_lt (bytes : Bytes) : bigEndian bytes < 0x100 ^ bytes.length := by
  induction bytes using List.reverseRecOn with
  | nil => exact Nat.one_pos
  | append_singleton bytes last ih =>
    have hlast := last.toNat_lt
    rw [bigEndian_append_singleton, List.length_append, List.length_singleton, Nat.pow_succ]
    omega

/-! ## Single readers -/

variable {α γ : Type} {input rest : Bytes}

theorem misshapen_eq_ok_iff {fault : ShapeFault} {value : α} :
    (misshapen fault : Reader α) input = .ok (value, rest) ↔ False := by
  constructor
  · intro h
    cases h
  · exact False.elim

theorem reject_eq_ok_iff {error : DecodeError} {value : α} :
    (reject error : Reader α) input = .ok (value, rest) ↔ False := by
  constructor
  · intro h
    cases h
  · exact False.elim

theorem pure_eq_ok_iff {value found : α} :
    (pure found : Reader α) input = .ok (value, rest) ↔ value = found ∧ input = rest := by
  constructor
  · intro h
    cases h
    exact ⟨rfl, rfl⟩
  · rintro ⟨rfl, rfl⟩
    rfl

/-- A check reads nothing. -/
theorem checked_eq_ok_iff {check : Except DecodeError α} {value : α} :
    checked check input = .ok (value, rest) ↔ check = .ok value ∧ input = rest := by
  cases check with
  | ok found =>
    rw [checked, pure_eq_ok_iff, Except.ok.injEq]
    exact and_congr_left fun _ => eq_comm
  | error error =>
    rw [checked, reject_eq_ok_iff]
    simp

/-- One reader after the other. -/
theorem bind_eq_ok_iff {first : Reader α} {next : α → Reader γ} {value : γ} :
    (first >>= next) input = .ok (value, rest)
      ↔ ∃ found middle, first input = .ok (found, middle)
        ∧ next found middle = .ok (value, rest) := by
  change (first input >>= fun read => next read.1 read.2) = _ ↔ _
  cases hfirst : first input with
  | error fault => simp [bind, Except.bind]
  | ok read =>
    obtain ⟨found, middle⟩ := read
    simp [bind, Except.bind]

/-- The reader that goes on, by a name of its own. -/
theorem exists_reader_of_bind {first : Reader α} {next : α → Reader γ} {value : γ}
    (h : (first >>= next) input = .ok (value, rest)) :
    ∃ found middle reader, first input = .ok (found, middle)
      ∧ next found = reader ∧ reader middle = .ok (value, rest) := by
  obtain ⟨found, middle, hfirst, hnext⟩ := bind_eq_ok_iff.1 h
  exact ⟨found, middle, next found, hfirst, rfl, hnext⟩

/-- A reader whose value is converted. -/
theorem map_eq_ok_iff {convert : α → γ} {reader : Reader α} {value : γ} :
    (convert <$> reader) input = .ok (value, rest)
      ↔ ∃ found, value = convert found ∧ reader input = .ok (found, rest) := by
  change (reader input >>= fun read => Except.ok (convert read.1, read.2)) = _ ↔ _
  cases hreader : reader input with
  | error fault => simp [bind, Except.bind]
  | ok read =>
    obtain ⟨found, behind⟩ := read
    simp only [bind, Except.bind, Except.ok.injEq, Prod.mk.injEq]
    constructor
    · rintro ⟨rfl, rfl⟩
      exact ⟨found, rfl, rfl, rfl⟩
    · rintro ⟨other, rfl, rfl, rfl⟩
      exact ⟨rfl, rfl⟩

/-- One byte is its own number. -/
theorem u1_eq_ok_iff {value : UInt8} :
    u1 input = .ok (value, rest) ↔ input = value :: rest := by
  cases input with
  | nil => simp [u1, misshapen]
  | cons first behind => simp [u1]

/-- As many bytes as asked for are taken as they are. -/
theorem take_eq_ok_iff {count : Nat} {taken : Bytes} :
    take count input = .ok (taken, rest) ↔ taken.length = count ∧ input = taken ++ rest := by
  unfold take
  simp only
  split
  · next hlength =>
    rw [Except.ok.injEq, Prod.mk.injEq]
    constructor
    · rintro ⟨rfl, rfl⟩
      exact ⟨hlength, (List.take_append_drop count input).symm⟩
    · rintro ⟨rfl, rfl⟩
      exact ⟨List.take_left, List.drop_left⟩
  · next hlength =>
    rw [misshapen_eq_ok_iff, false_iff]
    rintro ⟨rfl, rfl⟩
    exact hlength (by rw [List.take_left])

/-- Too few bytes are left where they are. -/
theorem take_of_length_lt {count : Nat} (h : input.length < count) :
    take count input = .error (.shape .endOfInput input.length) := by
  unfold take
  rw [if_neg]
  · rfl
  · rw [List.length_take]
    omega

/-- A reader of a number in a fixed count of bytes accepts what the number is written as. -/
theorem number_eq_ok_iff {width : Nat} {ofNumber : Nat → α} {number : α → Nat}
    (hread : ∀ n, n < 0x100 ^ width → number (ofNumber n) = n)
    (hwrite : ∀ value, ofNumber (number value) = value)
    (hlt : ∀ value, number value < 0x100 ^ width) {value : α} :
    ((fun bytes => ofNumber (bigEndian bytes)) <$> take width) input = .ok (value, rest)
      ↔ input = bigEndianBytes width (number value) ++ rest := by
  rw [map_eq_ok_iff]
  constructor
  · rintro ⟨bytes, rfl, htake⟩
    obtain ⟨rfl, rfl⟩ := take_eq_ok_iff.1 htake
    rw [hread _ (bigEndian_lt bytes), bigEndianBytes_bigEndian]
  · rintro rfl
    refine ⟨bigEndianBytes width (number value), ?_, ?_⟩
    · rw [bigEndian_bigEndianBytes, Nat.mod_eq_of_lt (hlt value), hwrite]
    · exact take_eq_ok_iff.2 ⟨length_bigEndianBytes width _, rfl⟩

theorem u1_eq_map_take : u1 = (fun bytes => bytes.headD 0) <$> take 1 := by
  funext input
  match input with
  | [] => rfl
  | first :: rest => rfl

theorem u2_eq_map_take : u2 = (fun bytes => UInt16.ofNat (bigEndian bytes)) <$> take 2 := by
  funext input
  match input with
  | [] | [_] => rfl
  | a :: b :: behind =>
    have hnumber : bigEndian [a, b] = a.toNat * 0x100 + b.toNat := by simp [bigEndian]
    change Except.ok (UInt16.ofNat (a.toNat * 0x100 + b.toNat), behind)
      = Except.ok (UInt16.ofNat (bigEndian [a, b]), behind)
    rw [hnumber]

theorem u4_eq_map_take : u4 = (fun bytes => UInt32.ofNat (bigEndian bytes)) <$> take 4 := by
  funext input
  match input with
  | [] | [_] | [_, _] | [_, _, _] => rfl
  | a :: b :: c :: d :: behind => rfl

theorem u8_eq_map_take : u8 = (fun bytes => UInt64.ofNat (bigEndian bytes)) <$> take 8 := by
  funext input
  match input with
  | [] | [_] | [_, _] | [_, _, _] | [_, _, _, _] => rfl
  | [_, _, _, _, _] | [_, _, _, _, _, _] | [_, _, _, _, _, _, _] => rfl
  | a :: b :: c :: d :: e :: f :: g :: h :: behind => rfl

/-- Two bytes are accepted as the number they write. -/
theorem u2_eq_ok_iff {value : UInt16} :
    u2 input = .ok (value, rest) ↔ input = u2Bytes value ++ rest := by
  rw [u2_eq_map_take]
  exact number_eq_ok_iff (fun n hn => UInt16.toNat_ofNat_of_lt' hn)
    (fun value => UInt16.ofNat_toNat) (fun value => value.toNat_lt)

/-- Four bytes are accepted as the number they write. -/
theorem u4_eq_ok_iff {value : UInt32} :
    u4 input = .ok (value, rest) ↔ input = u4Bytes value ++ rest := by
  rw [u4_eq_map_take]
  exact number_eq_ok_iff (fun n hn => UInt32.toNat_ofNat_of_lt' hn)
    (fun value => UInt32.ofNat_toNat) (fun value => value.toNat_lt)

/-- Eight bytes are accepted as the number they write. -/
theorem u8_eq_ok_iff {value : UInt64} :
    u8 input = .ok (value, rest) ↔ input = u8Bytes value ++ rest := by
  rw [u8_eq_map_take]
  exact number_eq_ok_iff (fun n hn => UInt64.toNat_ofNat_of_lt' hn)
    (fun value => UInt64.ofNat_toNat) (fun value => value.toNat_lt)

/-! ## Readers of raw values -/

/-- On at most `limit` bytes, a reader accepts exactly the bytes of raw values and answers
with what they mean. -/
def ReadsUpTo {ρ : Type} (limit : Nat) (reader : Reader α) (bytes : ρ → Bytes)
    (means : ρ → α → Prop) : Prop :=
  ∀ input value rest, input.length ≤ limit →
    (reader input = .ok (value, rest) ↔ ∃ raw, means raw value ∧ input = bytes raw ++ rest)

variable {ρ : Type} {limit : Nat} {item : Reader α} {bytes : ρ → Bytes} {means : ρ → α → Prop}

/-- Values in a row behind those already read. The induction is on their number; what is
left of the input stays within the limit. -/
theorem repeatedBehind_eq_ok_iff (h : ReadsUpTo limit item bytes means) {count : Nat}
    {read values : List α} (hlength : input.length ≤ limit) :
    repeatedBehind item count read input = .ok (values, rest)
      ↔ ∃ raws found, raws.length = count ∧ List.Forall₂ means raws found
        ∧ values = read.reverse ++ found ∧ input = raws.flatMap bytes ++ rest := by
  induction count generalizing read input with
  | zero =>
    rw [repeatedBehind, Except.ok.injEq, Prod.mk.injEq]
    constructor
    · rintro ⟨rfl, rfl⟩
      exact ⟨[], [], rfl, .nil, by rw [List.append_nil], rfl⟩
    · rintro ⟨raws, found, hcount, hmeans, rfl, rfl⟩
      obtain rfl := List.length_eq_zero_iff.1 hcount
      cases hmeans
      exact ⟨by rw [List.append_nil], rfl⟩
  | succ count ih =>
    simp only [repeatedBehind]
    constructor
    · intro hread
      split at hread
      · next value behind hitem =>
        obtain ⟨raw, hraw, rfl⟩ := (h input value behind hlength).1 hitem
        rw [List.length_append] at hlength
        obtain ⟨raws, found, rfl, hmeans, rfl, rfl⟩ := (ih (by omega)).1 hread
        refine ⟨raw :: raws, value :: found, rfl, .cons hraw hmeans, ?_, ?_⟩
        · rw [List.reverse_cons, List.append_assoc, List.singleton_append]
        · rw [List.flatMap_cons, List.append_assoc]
      · cases hread
    · rintro ⟨raws, found, hcount, hmeans, rfl, rfl⟩
      cases hmeans with
      | nil => cases hcount
      | @cons raw value raws found hraw hmeans =>
        have hitem := (h _ value (raws.flatMap bytes ++ rest) hlength).2
          ⟨raw, hraw, by rw [List.flatMap_cons, List.append_assoc]⟩
        rw [List.flatMap_cons, List.append_assoc, List.length_append] at hlength
        simp only [hitem]
        refine (ih (by omega)).2 ⟨raws, found, Nat.succ.inj hcount, hmeans, ?_, rfl⟩
        rw [List.reverse_cons, List.append_assoc, List.singleton_append]

/-- A given number of values, one after the other. -/
theorem repeated_eq_ok_iff (h : ReadsUpTo limit item bytes means) {count : Nat}
    {values : List α} (hlength : input.length ≤ limit) :
    repeated count item input = .ok (values, rest)
      ↔ ∃ raws, raws.length = count ∧ List.Forall₂ means raws values
        ∧ input = raws.flatMap bytes ++ rest := by
  rw [repeated, repeatedBehind_eq_ok_iff h hlength]
  simp

/-- Values behind their number. -/
theorem ReadsUpTo.counted (h : ReadsUpTo limit item bytes means) :
    ReadsUpTo limit (counted item) (countedBytes bytes)
      fun raws values => Countable raws ∧ List.Forall₂ means raws values := by
  intro input values rest hlength
  rw [Reader.counted, bind_eq_ok_iff]
  constructor
  · rintro ⟨count, middle, hcount, hitems⟩
    obtain rfl := u2_eq_ok_iff.1 hcount
    rw [List.length_append] at hlength
    obtain ⟨raws, hraws, hmeans, rfl⟩ := (repeated_eq_ok_iff h (by omega)).1 hitems
    have hcountable : raws.length < 0x10000 := by
      rw [hraws]
      exact count.toNat_lt
    refine ⟨raws, ⟨hcountable, hmeans⟩, ?_⟩
    rw [countedBytes, hraws, u2Bytes, List.append_assoc]
  · rintro ⟨raws, ⟨hcountable, hmeans⟩, rfl⟩
    have hnumber : (UInt16.ofNat raws.length).toNat = raws.length :=
      UInt16.toNat_ofNat_of_lt' hcountable
    rw [countedBytes, List.append_assoc, List.length_append] at hlength
    refine ⟨UInt16.ofNat raws.length, raws.flatMap bytes ++ rest, ?_, ?_⟩
    · rw [u2_eq_ok_iff, u2Bytes, hnumber, countedBytes, List.append_assoc]
    · rw [hnumber]
      exact (repeated_eq_ok_iff h (by omega)).2 ⟨raws, rfl, hmeans, rfl⟩

end Reader

end ClassAtlas
