import ClassAtlas.Proofs.ClassFile.ReaderExactness

/-!
# Reading on when more bytes follow

A reader that has its value, or a definite cause to stop, does not look at the
bytes behind it. A reader that runs out of bytes may go either way when more bytes
follow, but it never goes back behind the field it stopped at. Both are kept by
every way of putting readers together. The statements compare two readers, since
the bound on the bytes at hand differs between an input and a longer one.
-/

namespace ClassAtlas

/-- Whether an error tells an offset in the file. -/
def DecodeError.isLocated : DecodeError → Bool
  | truncated _ | malformed _ _ => true
  | _ => false

/-- A check none of whose errors tells an offset. -/
def Unlocated {α : Type} (check : Except DecodeError α) : Prop :=
  ∀ error, check = .error error → error.isLocated = false

@[simp] theorem unlocated_ok {α : Type} (value : α) :
    Unlocated (.ok value : Except DecodeError α) := by
  intro error h
  cases h

@[simp] theorem unlocated_error {α : Type} {error : DecodeError} :
    Unlocated (.error error : Except DecodeError α) ↔ error.isLocated = false := by
  constructor
  · intro h
    exact h error rfl
  · intro h _ hsame
    cases hsame
    exact h

/-- Checks in a row tell no offset if none of them does. -/
theorem Unlocated.bind {α γ : Type} {check : Except DecodeError α}
    {next : α → Except DecodeError γ} (h : Unlocated check)
    (hnext : ∀ value, Unlocated (next value)) : Unlocated (check >>= next) := by
  cases check with
  | ok value => exact hnext value
  | error error => exact unlocated_error.2 (unlocated_error.1 h)

/-- Converting the value of a check makes no difference to what it tells. -/
theorem Unlocated.map {α γ : Type} {check : Except DecodeError α} (h : Unlocated check)
    (convert : α → γ) : Unlocated (check.map convert) := by
  cases check with
  | ok value => exact unlocated_ok (convert value)
  | error error => exact unlocated_error.2 (unlocated_error.1 h)

/-- Checking all items tells no offset if checking one does not. -/
theorem Unlocated.mapM {α γ : Type} {check : α → Except DecodeError γ}
    (h : ∀ item, Unlocated (check item)) (items : List α) : Unlocated (items.mapM check) := by
  induction items with
  | nil => exact unlocated_ok []
  | cons item items ih =>
    rw [List.mapM_cons]
    exact (h item).bind fun _ => ih.bind fun _ => unlocated_ok _

namespace Reader

/-! ## Outcomes -/

/-- What a reader ends with. -/
abbrev Outcome (α : Type) := Except Fault (α × Bytes)

variable {α γ : Type}

/-- At most `count` bytes are left where a reader ends; a rejection tells no place. -/
def Leaves (count : Nat) : Outcome α → Prop
  | .ok (_, rest) => rest.length ≤ count
  | .error (.shape _ remaining) => remaining ≤ count
  | .error (.rejected _) => True

/-- A reader stops for another cause than the end of the bytes. -/
def Definite : Outcome α → Prop
  | .ok _ => False
  | .error (.shape fault _) => fault ≠ .endOfInput
  | .error (.rejected error) => error.isLocated = false

/-- How an outcome changes when more bytes follow the input. -/
inductive Continues (more : Bytes) (onValue : α → Bytes → Outcome α) :
    Outcome α → Outcome α → Prop where
  /-- A value is followed by what is asked of it. -/
  | value (value : α) (rest : Bytes) :
    Continues more onValue (.ok (value, rest)) (onValue value rest)
  /-- A definite cause is followed by a definite cause. -/
  | definite {outcome longer : Outcome α} (h : Definite outcome) (h' : Definite longer) :
    Continues more onValue outcome longer
  /-- A field that did not fit is not gone back behind. -/
  | cut {remaining : Nat} {longer : Outcome α} (h : Leaves (remaining + more.length) longer) :
    Continues more onValue (.error (.shape .endOfInput remaining)) longer

/-- The same value, with the further bytes left behind the rest. -/
def carryOn (more : Bytes) (value : α) (rest : Bytes) : Outcome α :=
  .ok (value, rest ++ more)

/-- The further bytes are too many. -/
def refuseMore (more : Bytes) (_ : α) (_ : Bytes) : Outcome α :=
  .error (.rejected (.trailingBytes more.length))

/-- What leaves few bytes leaves no more than a greater number. -/
theorem Leaves.mono {count bound : Nat} {outcome : Outcome α} (h : Leaves count outcome)
    (hle : count ≤ bound) : Leaves bound outcome := by
  match outcome, h with
  | .ok (_, _), h => exact Nat.le_trans h hle
  | .error (.shape _ _), h => exact Nat.le_trans h hle
  | .error (.rejected _), _ => trivial

/-- A reader behind another one leaves no more than it finds. -/
theorem Leaves.bind {count : Nat} {outcome : Outcome α} {next : α → Reader γ}
    (h : Leaves count outcome) (hnext : ∀ value input, Leaves input.length (next value input)) :
    Leaves count (outcome.bind fun read => next read.1 read.2) := by
  match outcome, h with
  | .ok (value, rest), h => exact (hnext value rest).mono h
  | .error (.shape _ _), h => exact h
  | .error (.rejected _), _ => trivial

/-- A definite outcome stays what it is, whatever would be read next. -/
theorem Definite.bind {outcome : Outcome α} (h : Definite outcome) (next : α → Reader γ) :
    Definite (outcome.bind fun read => next read.1 read.2) := by
  match outcome, h with
  | .error (.shape _ _), h => exact h
  | .error (.rejected _), h => exact h

/-- What follows a reader is asked only about the value it gives. -/
theorem Continues.bind {more : Bytes} {outcome longer : Outcome α}
    {onValue : γ → Bytes → Outcome γ} {next next' : α → Reader γ}
    (h : Continues more (carryOn more) outcome longer)
    (hnext : ∀ value rest, outcome = .ok (value, rest) →
      Continues more onValue (next value rest) (next' value (rest ++ more)))
    (hshrinks : ∀ value input, Leaves input.length (next' value input)) :
    Continues more onValue (outcome.bind fun read => next read.1 read.2)
      (longer.bind fun read => next' read.1 read.2) := by
  cases h with
  | value value rest => exact hnext value rest rfl
  | definite h h' => exact .definite (h.bind next) (h'.bind next')
  | cut h => exact .cut (h.bind hshrinks)

/-! ## Readers -/

theorem repeatedBehind_succ (item : Reader α) (count : Nat) (read : List α) :
    repeatedBehind item (count + 1) read
      = item >>= fun value => repeatedBehind item count (value :: read) := by
  funext input
  change _ = (item input).bind fun found => repeatedBehind item count (found.1 :: read) found.2
  simp only [repeatedBehind]
  cases item input with
  | error fault => rfl
  | ok found => rfl

/-- On at most `long` bytes, `longer` does what `reader` does on at most `short` bytes at
their beginning. -/
structure Continued (short long : Nat) (reader longer : Reader α) : Prop where
  /-- Both readers do the same on the same bytes. -/
  agrees : ∀ input : Bytes, input.length ≤ short → input.length ≤ long →
    reader input = longer input
  /-- The outcome on the beginning carries on. -/
  continues : ∀ input more : Bytes, input.length ≤ short → (input ++ more).length ≤ long →
    Continues more (carryOn more) (reader input) (longer (input ++ more))
  /-- No bytes are put back. -/
  shrinks : ∀ input : Bytes, Leaves input.length (longer input)

variable {short long : Nat}

namespace Continued

/-- A reader that is compared with itself agrees. -/
theorem of_self {reader : Reader α}
    (continues : ∀ input more : Bytes,
      Continues more (carryOn more) (reader input) (reader (input ++ more)))
    (shrinks : ∀ input : Bytes, Leaves input.length (reader input)) :
    Continued short long reader reader where
  agrees _ _ _ := rfl
  continues input more _ _ := continues input more
  shrinks := shrinks

/-- Reading nothing is the same on a beginning and on the whole. -/
theorem pure (value : α) : Continued short long (pure value) (pure value) := by
  apply of_self
  · intro input more
    exact .value value input
  · intro input
    exact Nat.le_refl _

/-- A fault of shape, other than an end of the input, is the same on a beginning and on the whole.
-/
theorem misshapen {fault : ShapeFault} (h : fault ≠ .endOfInput) :
    Continued short long (misshapen fault : Reader α) (misshapen fault) := by
  apply of_self
  · intro input more
    exact .definite h h
  · intro input
    exact Nat.le_refl _

/-- A rejection without an offset is the same on a beginning and on the whole. -/
theorem reject {error : DecodeError} (h : error.isLocated = false) :
    Continued short long (reject error : Reader α) (reject error) := by
  apply of_self
  · intro input more
    exact .definite h h
  · intro input
    exact trivial

/-- A check that tells no offset is the same on a beginning and on the whole. -/
theorem checked {check : Except DecodeError α} (h : Unlocated check) :
    Continued short long (checked check) (checked check) := by
  cases check with
  | ok value => exact Continued.pure value
  | error error => exact Continued.reject (unlocated_error.1 h)

/-- Bytes are taken off the front as long as there are enough of them. -/
theorem take (count : Nat) : Continued short long (take count) (take count) := by
  have hshrinks : ∀ input : Bytes, Leaves input.length (Reader.take count input) := by
    intro input
    unfold Reader.take
    simp only
    split
    · change (input.drop count).length ≤ input.length
      rw [List.length_drop]
      omega
    · exact Nat.le_refl _
  apply of_self _ hshrinks
  intro input more
  by_cases hlength : count ≤ input.length
  · have hshort : Reader.take count input = .ok (input.take count, input.drop count) :=
      take_eq_ok_iff.2 ⟨List.length_take_of_le hlength, (List.take_append_drop ..).symm⟩
    have hlong : Reader.take count (input ++ more)
        = .ok (input.take count, input.drop count ++ more) := by
      refine take_eq_ok_iff.2 ⟨List.length_take_of_le hlength, ?_⟩
      rw [← List.append_assoc, List.take_append_drop]
    rw [hshort, hlong]
    exact .value (input.take count) (input.drop count)
  · rw [take_of_length_lt (Nat.lt_of_not_le hlength)]
    refine .cut ((hshrinks (input ++ more)).mono ?_)
    rw [List.length_append]

/-- Within its bounds a reader leaves no more bytes than it finds. -/
theorem length_rest_le {reader longer : Reader α} (h : Continued short long reader longer)
    {input rest : Bytes} {value : α} (hshort : input.length ≤ short)
    (hlong : input.length ≤ long) (hread : reader input = .ok (value, rest)) :
    rest.length ≤ input.length := by
  have hshrinks := h.shrinks input
  rw [← h.agrees input hshort hlong, hread] at hshrinks
  exact hshrinks

/-- One reader after the other. The second one is asked only about values that the first one
gives within the bounds, and its own bounds are lower by the `width` that the first one
takes. -/
theorem bind_of_ok (width : Nat) {first first' : Reader α} {next next' : α → Reader γ}
    (h : Continued (short + width) (long + width) first first')
    (hnext : ∀ input value rest, input.length ≤ short + width → input.length ≤ long + width →
      first input = .ok (value, rest) →
        rest.length + width ≤ input.length ∧ Continued short long (next value) (next' value))
    (hshrinks : ∀ value input, Leaves input.length (next' value input)) :
    Continued (short + width) (long + width) (first >>= next) (first' >>= next') where
  agrees := by
    intro input hshort hlong
    change (first input).bind (fun read => next read.1 read.2)
      = (first' input).bind fun read => next' read.1 read.2
    rw [← h.agrees input hshort hlong]
    cases hread : first input with
    | error fault => rfl
    | ok read =>
      obtain ⟨hrest, hcontinued⟩ := hnext input read.1 read.2 hshort hlong hread
      exact hcontinued.agrees read.2 (by omega) (by omega)
  continues := by
    intro input more hshort hlong
    have hinput : input.length ≤ long + width := by
      rw [List.length_append] at hlong
      omega
    refine (h.continues input more hshort hlong).bind ?_ hshrinks
    intro value rest hread
    obtain ⟨hrest, hcontinued⟩ := hnext input value rest hshort hinput hread
    apply hcontinued.continues
    · omega
    · rw [List.length_append] at hlong ⊢
      omega
  shrinks := by
    intro input
    exact (h.shrinks input).bind hshrinks

/-- Readers in a row are continued one after the other. -/
theorem bind {first first' : Reader α} {next next' : α → Reader γ}
    (h : Continued short long first first')
    (hnext : ∀ value, Continued short long (next value) (next' value)) :
    Continued short long (first >>= next) (first' >>= next') := by
  apply bind_of_ok 0 h
  · intro input value rest hshort hlong hread
    exact ⟨h.length_rest_le hshort hlong hread, hnext value⟩
  · intro value
    exact (hnext value).shrinks

/-- The bytes taken are within the bounds. -/
theorem take_bind {count : Nat} {next next' : Bytes → Reader γ}
    (hnext : ∀ taken, taken.length ≤ short → taken.length ≤ long →
      Continued short long (next taken) (next' taken))
    (hshrinks : ∀ taken input, Leaves input.length (next' taken input)) :
    Continued short long (Reader.take count >>= next) (Reader.take count >>= next') := by
  apply bind_of_ok 0 (Continued.take count) _ hshrinks
  intro input taken rest hshort hlong hread
  obtain ⟨-, rfl⟩ := take_eq_ok_iff.1 hread
  rw [List.length_append] at hshort hlong ⊢
  exact ⟨by omega, hnext taken (by omega) (by omega)⟩

/-- Converting what was read keeps a reader continued. -/
theorem map {reader longer : Reader α} (h : Continued short long reader longer)
    (convert : α → γ) : Continued short long (convert <$> reader) (convert <$> longer) :=
  h.bind fun value => Continued.pure (convert value)

theorem u1 : Continued short long u1 u1 := by
  rw [u1_eq_map_take]
  exact (Continued.take 1).map _

theorem u2 : Continued short long u2 u2 := by
  rw [u2_eq_map_take]
  exact (Continued.take 2).map _

theorem u4 : Continued short long u4 u4 := by
  rw [u4_eq_map_take]
  exact (Continued.take 4).map _

theorem u8 : Continued short long u8 u8 := by
  rw [u8_eq_map_take]
  exact (Continued.take 8).map _

/-- Behind a number of two bytes the bounds are lower. -/
theorem u2_bind {next next' : UInt16 → Reader γ}
    (hnext : ∀ value, Continued short long (next value) (next' value)) :
    Continued (short + 1) (long + 1) (Reader.u2 >>= next) (Reader.u2 >>= next') := by
  apply bind_of_ok 1 Continued.u2
  · intro input value rest hshort hlong hread
    obtain rfl := u2_eq_ok_iff.1 hread
    rw [List.length_append, length_u2Bytes]
    exact ⟨by omega, hnext value⟩
  · intro value
    exact (hnext value).shrinks

theorem repeatedBehind {item item' : Reader α} (h : Continued short long item item')
    (count : Nat) (read : List α) :
    Continued short long (repeatedBehind item count read) (repeatedBehind item' count read) := by
  induction count generalizing read with
  | zero => exact Continued.pure read.reverse
  | succ count ih =>
    rw [repeatedBehind_succ, repeatedBehind_succ]
    exact h.bind fun value => ih (value :: read)

/-- A row of items is continued if an item is. -/
theorem repeated {item item' : Reader α} (h : Continued short long item item') (count : Nat) :
    Continued short long (repeated count item) (repeated count item') :=
  h.repeatedBehind count []

/-- Counted items are continued if an item is. -/
theorem counted {item item' : Reader α} (h : Continued short long item item') :
    Continued short long (counted item) (counted item') :=
  Continued.u2.bind fun count => h.repeated count.toNat

end Continued

/-! ## Readers of everything -/

/-- On at most `long` bytes, `longer` refuses whatever follows what `reader` accepts. -/
structure Closed (short long : Nat) (reader longer : Reader α) : Prop where
  /-- A value is refused when more bytes follow. -/
  closes : ∀ input more : Bytes, more ≠ [] → input.length ≤ short →
    (input ++ more).length ≤ long →
      Continues more (refuseMore more) (reader input) (longer (input ++ more))
  /-- No bytes are put back. -/
  shrinks : ∀ input : Bytes, Leaves input.length (longer input)

/-- The end of the file comes after readers that carry on. -/
theorem Continued.bind_closed {first first' : Reader α} {next next' : α → Reader γ}
    (h : Continued short long first first')
    (hnext : ∀ value, Closed short long (next value) (next' value)) :
    Closed short long (first >>= next) (first' >>= next') where
  closes := by
    intro input more hmore hshort hlong
    refine (h.continues input more hshort hlong).bind ?_ fun value => (hnext value).shrinks
    intro value rest hread
    rw [List.length_append] at hlong
    have hrest := h.length_rest_le hshort (by omega) hread
    apply (hnext value).closes rest more hmore
    · omega
    · rw [List.length_append]
      omega
  shrinks := by
    intro input
    exact (h.shrinks input).bind fun value => (hnext value).shrinks

end Reader

end ClassAtlas
