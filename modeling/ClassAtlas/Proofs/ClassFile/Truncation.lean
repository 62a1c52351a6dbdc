import ClassAtlas.ClassFile.Decode
import ClassAtlas.Proofs.ClassFile.Continuation

/-!
# Files that end early

Decoding a class file that was cut off somewhere is reported as truncated, at a
field that starts within what is left. A class file with bytes behind it is
reported with the number of these bytes. So an accepted class file is never the
beginning of another one, and a cause of rejection other than the end of the file
is not mended by further bytes.
-/

namespace ClassAtlas

open Reader

/-! ## Checks tell no offset -/

namespace ConstantPool

variable (pool : ConstantPool) (index : UInt16)

/-- Looking a constant up tells no offset. -/
theorem unlocated_get : Unlocated (pool.get index) := by
  unfold get
  split
  · exact unlocated_error.2 rfl
  · split
    · exact unlocated_error.2 rfl
    · exact unlocated_error.2 rfl
    · exact unlocated_ok _

theorem unlocated_utf8 : Unlocated (pool.utf8 index) := by
  apply (pool.unlocated_get index).bind
  intro constant
  split
  · exact unlocated_ok _
  · exact unlocated_error.2 rfl

theorem unlocated_className : Unlocated (pool.className index) := by
  apply (pool.unlocated_get index).bind
  intro constant
  split
  · exact pool.unlocated_utf8 _
  · exact unlocated_error.2 rfl

theorem unlocated_string : Unlocated (pool.string index) := by
  apply (pool.unlocated_get index).bind
  intro constant
  split
  · exact pool.unlocated_utf8 _
  · exact unlocated_error.2 rfl

theorem unlocated_nameAndType : Unlocated (pool.nameAndType index) := by
  apply (pool.unlocated_get index).bind
  intro constant
  split
  · exact (pool.unlocated_utf8 _).bind fun _ => (pool.unlocated_utf8 _).bind fun _ =>
      unlocated_ok _
  · exact unlocated_error.2 rfl

theorem unlocated_memberRef : Unlocated (pool.memberRef index) := by
  apply (pool.unlocated_get index).bind
  intro constant
  split
  · exact (pool.unlocated_nameAndType _).bind fun _ => (pool.unlocated_className _).bind fun _ =>
      unlocated_ok _
  · exact unlocated_error.2 rfl

/-- A check whose value is dropped. -/
theorem unlocated_dropped {α : Type} {check : Except DecodeError α} (h : Unlocated check) :
    Unlocated (check >>= fun _ => .ok ()) :=
  h.bind fun _ => unlocated_ok ()

/-- Checking what a constant refers to tells no offset. -/
theorem unlocated_validateConstant (constant : Constant) :
    Unlocated (pool.validateConstant constant) := by
  cases constant with
  | utf8 | integer | float | long | double => exact unlocated_ok ()
  | classEntry | moduleEntry | packageEntry | stringEntry | methodType =>
    exact unlocated_dropped (pool.unlocated_utf8 _)
  | member =>
    exact (pool.unlocated_className _).bind fun _ =>
      unlocated_dropped (pool.unlocated_nameAndType _)
  | nameAndType =>
    exact (pool.unlocated_utf8 _).bind fun _ => unlocated_dropped (pool.unlocated_utf8 _)
  | methodHandle => exact unlocated_dropped (pool.unlocated_memberRef _)
  | dynamic | invokeDynamic => exact unlocated_dropped (pool.unlocated_nameAndType _)

/-- Checking all constants tells no offset. -/
theorem unlocated_validateAll (constants : List (UInt16 × Constant)) :
    Unlocated (pool.validateAll constants) := by
  induction constants with
  | nil => exact unlocated_ok ()
  | cons entry constants ih =>
    have h := pool.unlocated_validateConstant entry.2
    rw [validateAll]
    split
    · exact ih
    · next error herror =>
      rw [herror] at h
      exact unlocated_error.2 (unlocated_error.1 h)

end ConstantPool

namespace AttributeReader

variable (pool : ConstantPool) (index : UInt16)

theorem unlocated_qualifiedClassName : Unlocated (qualifiedClassName pool index) :=
  (pool.unlocated_className index).map Text.internalToQualified

theorem unlocated_qualifiedClassNames (indices : List UInt16) :
    Unlocated (qualifiedClassNames pool indices) :=
  Unlocated.mapM (unlocated_qualifiedClassName pool) indices

/-- A descriptor that is no field type is told without an offset. -/
theorem unlocated_fieldTypeAt : Unlocated (fieldTypeAt pool index) := by
  apply (pool.unlocated_utf8 index).bind
  intro text
  split
  · exact unlocated_ok _
  · exact unlocated_error.2 rfl

theorem unlocated_resultTypeAt : Unlocated (resultTypeAt pool index) := by
  apply (pool.unlocated_utf8 index).bind
  intro text
  split
  · exact unlocated_ok _
  · exact unlocated_error.2 rfl

/-- A constant that cannot be loaded is told without an offset. -/
theorem unlocated_loadableAt : Unlocated (loadableAt pool index) := by
  apply (pool.unlocated_get index).bind
  intro constant
  cases constant with
  | integer | float | long | double => exact unlocated_ok _
  | stringEntry => exact (pool.unlocated_string index).bind fun _ => unlocated_ok _
  | _ => exact unlocated_error.2 rfl

end AttributeReader

/-- A descriptor that is no method type, or takes too many slots, is told without an offset. -/
theorem unlocated_methodTypeAt (pool : ConstantPool) (flags index : UInt16) :
    Unlocated (methodTypeAt pool flags index) := by
  apply (pool.unlocated_utf8 index).bind
  intro text
  cases Descriptor.methodType? text with
  | none => exact unlocated_error.2 rfl
  | some type =>
    simp only
    generalize (if AccessFlags.has flags AccessFlags.staticBit = true then 0 else 1) = receiver
    split
    · exact unlocated_error.2 rfl
    · exact unlocated_ok type

/-! ## The constant pool -/

section

variable {short long : Nat}

namespace PoolReader

theorem utf8_continued (index : UInt16) : Continued short long (utf8 index) (utf8 index) := by
  apply Continued.u2.bind
  intro length
  apply (Continued.take length.toNat).bind
  intro bytes
  split
  · exact .pure _
  · exact .reject rfl

theorem indexPair_continued (build : UInt16 → UInt16 → Constant) :
    Continued short long (indexPair build) (indexPair build) :=
  Continued.u2.bind fun first => Continued.u2.bind fun second => .pure (build first second)

/-- A constant behind its tag is read alike from a beginning and from the whole. -/
theorem tagged_continued (tag : UInt8) (index : UInt16) :
    Continued short long (tagged tag index) (tagged tag index) := by
  unfold tagged
  split
  case h_1 => exact utf8_continued index
  case h_2 | h_3 => exact Continued.u4.bind fun _ => .pure _
  case h_4 | h_5 => exact Continued.u8.bind fun _ => .pure _
  case h_6 | h_7 | h_13 | h_16 | h_17 => exact Continued.u2.bind fun _ => .pure _
  case h_8 | h_9 | h_10 | h_11 | h_14 | h_15 => exact indexPair_continued _
  case h_12 => exact Continued.u1.bind fun _ => Continued.u2.bind fun _ => .pure _
  case h_18 => exact .reject rfl

theorem constant_continued (index : UInt16) :
    Continued short long (constant index) (constant index) :=
  Continued.u1.bind fun tag => tagged_continued tag index

/-- One constant is read, and then the slots behind it. -/
theorem slotsBehind_succ (missing : Nat) (filled : Array PoolSlot) :
    slotsBehind (missing + 1) filled = (do
      let entry ← constant (UInt16.ofNat (filled.size + 1))
      if entry.isWide then
        match missing with
        | 0 => reject (.badConstantIndex (UInt16.ofNat (filled.size + 2)))
        | missing + 1 => slotsBehind missing ((filled.push (.usable entry)).push .phantom)
      else slotsBehind missing (filled.push (.usable entry))) := by
  funext input
  change _ = (constant (UInt16.ofNat (filled.size + 1)) input).bind _
  simp only [slotsBehind]
  cases constant (UInt16.ofNat (filled.size + 1)) input with
  | error fault => rfl
  | ok found =>
    by_cases hwide : found.1.isWide = true
    · simp only [Except.bind, if_pos hwide]
      cases missing with
      | zero => rfl
      | succ missing => rfl
    · simp only [Except.bind, if_neg hwide]

/-- A wide constant takes two slots at once, so that the induction reaches back by two. -/
theorem slotsBehind_continued (missing : Nat) (filled : Array PoolSlot) :
    Continued short long (slotsBehind missing filled) (slotsBehind missing filled) := by
  induction missing using Nat.strong_induction_on generalizing filled with
  | h missing ih =>
    cases missing with
    | zero => exact Continued.pure filled
    | succ missing =>
      rw [slotsBehind_succ]
      apply (constant_continued _).bind
      intro entry
      split
      · split
        · exact .reject rfl
        · exact ih _ (by omega) _
      · exact ih missing (by omega) _

/-- The constant pool is read alike from a beginning and from the whole. -/
theorem pool_continued : Continued short long pool pool := by
  apply Continued.u2.bind
  intro count
  split
  · exact .reject rfl
  · apply (slotsBehind_continued _ _).bind
    intro slots
    exact (Continued.checked (ConstantPool.unlocated_validateAll _ _)).bind fun _ => .pure _

end PoolReader

/-! ## Attributes -/

namespace AttributeReader

variable (pool : ConstantPool)

/-- An annotation is read alike from a beginning and from the whole if its element values are. -/
theorem annotationOf_continued {element : Reader ElementValue}
    (h : Continued short long element element) :
    Continued short long (annotationOf pool element) (annotationOf pool element) := by
  apply Continued.u2.bind
  intro typeIndex
  apply (Continued.checked (unlocated_fieldTypeAt pool typeIndex)).bind
  intro type
  refine Continued.bind (Continued.counted ?_) fun elements => .pure _
  apply Continued.u2.bind
  intro nameIndex
  exact (Continued.checked (pool.unlocated_utf8 nameIndex)).bind fun name => h.bind fun value =>
    .pure (name, value)

theorem constantElement_continued (tag : Char) :
    Continued short long (constantElement pool tag) (constantElement pool tag) := by
  apply Continued.u2.bind
  intro index
  split
  · exact (Continued.checked (pool.unlocated_utf8 index)).bind fun _ => .pure _
  · exact (Continued.checked (unlocated_loadableAt pool index)).bind fun _ => .pure _

/-- The induction is on the levels of nesting that are left. -/
theorem elementValue_continued (room : Nat) :
    Continued short long (elementValue pool room) (elementValue pool room) := by
  induction room with
  | zero => exact Continued.misshapen (by decide)
  | succ room ih =>
    apply Continued.u1.bind
    intro tag
    split
    case h_1 | h_2 | h_3 | h_4 | h_5 | h_6 | h_7 | h_8 | h_9 =>
      exact constantElement_continued pool _
    case h_10 =>
      apply Continued.u2.bind
      intro typeIndex
      apply Continued.u2.bind
      intro nameIndex
      apply (Continued.checked (pool.unlocated_utf8 typeIndex)).bind
      intro typeName
      exact (Continued.checked (pool.unlocated_utf8 nameIndex)).bind fun _ => .pure _
    case h_11 =>
      apply Continued.u2.bind
      intro index
      exact (Continued.checked (unlocated_resultTypeAt pool index)).bind fun _ => .pure _
    case h_12 => exact (annotationOf_continued pool ih).bind fun _ => .pure _
    case h_13 => exact ih.counted.bind fun _ => .pure _
    case h_14 => exact .misshapen (by decide)

theorem exceptionHandler_continued :
    Continued short long (exceptionHandler pool) (exceptionHandler pool) := by
  apply Continued.u2.bind
  intro startPc
  apply Continued.u2.bind
  intro endPc
  apply Continued.u2.bind
  intro handlerPc
  apply Continued.u2.bind
  intro catchIndex
  split
  · exact .pure _
  · exact (Continued.checked (unlocated_qualifiedClassName pool catchIndex)).bind fun _ => .pure _

theorem localVariable_continued :
    Continued short long (localVariable pool) (localVariable pool) := by
  apply Continued.u2.bind
  intro startPc
  apply Continued.u2.bind
  intro length
  apply Continued.u2.bind
  intro nameIndex
  apply Continued.u2.bind
  intro typeIndex
  apply Continued.u2.bind
  intro index
  apply (Continued.checked (pool.unlocated_utf8 nameIndex)).bind
  intro name
  exact (Continued.checked (unlocated_fieldTypeAt pool typeIndex)).bind fun _ => .pure _

theorem recordedParameter_continued :
    Continued short long (recordedParameter pool) (recordedParameter pool) := by
  apply Continued.u2.bind
  intro nameIndex
  apply Continued.u2.bind
  intro flags
  split
  · exact .pure _
  · exact (Continued.checked (pool.unlocated_utf8 nameIndex)).bind fun _ => .pure _

theorem textContent_continued :
    Continued short long (textContent pool) (textContent pool) :=
  Continued.u2.bind fun index => .checked (pool.unlocated_utf8 index)

variable {pool} {nested nested' : Reader (List Attribute)}

/-- A method body is read alike from a beginning and from the whole if its attributes are. -/
theorem codeBody_continued (h : Continued short long nested nested') :
    Continued short long (codeBody pool nested) (codeBody pool nested') := by
  apply Continued.u2.bind
  intro maxStack
  apply Continued.u2.bind
  intro maxLocals
  apply Continued.u4.bind
  intro codeLength
  apply (Continued.take codeLength.toNat).bind
  intro code
  apply (exceptionHandler_continued pool).counted.bind
  intro handlers
  exact h.bind fun attributes => .pure _

/-- Only method bodies depend on how their attributes are read. -/
theorem knownContent?_continued (h : Continued short long nested nested') (name : String) :
    Option.Rel (Continued short long) (knownContent? pool nested name)
      (knownContent? pool nested' name) := by
  unfold knownContent?
  split
  · exact .some ((codeBody_continued h).map _)
  · exact .some (Continued.u2.bind fun index =>
      (Continued.checked (unlocated_loadableAt pool index)).bind fun _ => .pure _)
  · exact .some (.pure _)
  · exact .some (.pure _)
  · exact .some ((textContent_continued pool).map _)
  · exact .some ((textContent_continued pool).map _)
  · exact .some (Continued.u2.counted.bind fun indices =>
      (Continued.checked (unlocated_qualifiedClassNames pool indices)).bind fun _ => .pure _)
  · refine .some (Continued.map (Continued.counted ?_) _)
    exact Continued.u2.bind fun _ => Continued.u2.bind fun _ => .pure _
  · exact .some ((localVariable_continued pool).counted.map _)
  · exact .some (Continued.u1.bind fun count =>
      ((recordedParameter_continued pool).repeated count.toNat).bind fun _ => .pure _)
  · exact .some ((annotationOf_continued pool (elementValue_continued pool _)).counted.map _)
  · exact .none

/-- Within a content no more bytes can follow, so that its end is as good a cause as any. -/
theorem unlocated_wholeContent {reader longer : Reader Attribute}
    (h : Continued short long reader longer) {mismatch : DecodeError}
    (hmismatch : mismatch.isLocated = false) {content : Bytes} (hshort : content.length ≤ short)
    (hlong : content.length ≤ long) : Unlocated (wholeContent reader mismatch content) := by
  have hcontinues := h.continues content [] hshort (by rwa [List.append_nil])
  unfold wholeContent
  generalize reader content = outcome at hcontinues
  split
  · exact unlocated_ok _
  · exact unlocated_error.2 hmismatch
  · exact unlocated_error.2 hmismatch
  · cases hcontinues with
    | definite hdefinite _ => exact unlocated_error.2 hdefinite

/-- The bounds are lower for the attributes of a method body, whose bytes are part of the
content. -/
theorem single_continued (h : Continued short long nested nested') :
    Continued (short + 1) (long + 1) (single pool nested) (single pool nested') := by
  apply Continued.u2_bind
  intro nameIndex
  apply Continued.u4.bind
  intro length
  apply (Continued.checked (pool.unlocated_utf8 nameIndex)).bind
  intro name
  have hknown : Option.Rel (Continued short long) (knownContent? pool nested name)
    (knownContent? pool nested' name) := knownContent?_continued h name
  generalize knownContent? pool nested name = known at hknown ⊢
  generalize knownContent? pool nested' name = known' at hknown ⊢
  cases hknown with
  | none => exact (Continued.take length.toNat).bind fun content => .pure _
  | @some reader longer hreader =>
    apply Continued.take_bind
    · intro content hshort hlong
      have hsame : wholeContent longer (.attributeLength name length) content
          = wholeContent reader (.attributeLength name length) content := by
        unfold wholeContent
        rw [hreader.agrees content hshort hlong]
      simp only [hsame]
      exact .checked (unlocated_wholeContent hreader rfl hshort hlong)
    · intro content input
      simp only
      cases wholeContent longer (.attributeLength name length) content with
      | ok value => exact Nat.le_refl _
      | error error => exact trivial

/-- No attributes can be read where the input has ended, whatever the limit. -/
theorem attributes_nil (pool : ConstantPool) (limit : Nat) :
    attributes pool limit [] = .error (.shape .endOfInput 0) := by
  cases limit with
  | zero => rfl
  | succ limit => rfl

/-- Attributes carry on from one limit to another. The induction is on the limit of the longer
input; a limit of zero leaves no bytes to compare. -/
theorem attributes_continued (pool : ConstantPool) (limit limit' : Nat) :
    Continued limit limit' (attributes pool limit) (attributes pool limit') := by
  induction limit' generalizing limit with
  | zero =>
    constructor
    · intro input _ hlong
      obtain rfl := List.length_eq_zero_iff.1 (Nat.le_zero.1 hlong)
      rw [attributes_nil, attributes_nil]
    · intro input more _ hlong
      have hempty := List.length_eq_zero_iff.1 (Nat.le_zero.1 hlong)
      obtain ⟨rfl, rfl⟩ := List.append_eq_nil_iff.1 hempty
      rw [attributes_nil]
      exact .cut (Nat.le_refl 0)
    · intro input
      exact Nat.le_refl _
  | succ limit' ih =>
    cases limit with
    | zero =>
      have hshrinks : ∀ input, Leaves input.length (attributes pool (limit' + 1) input) :=
        (single_continued (ih limit')).counted.shrinks
      constructor
      · intro input hshort _
        obtain rfl := List.length_eq_zero_iff.1 (Nat.le_zero.1 hshort)
        rw [attributes_nil, attributes_nil]
      · intro input more hshort _
        obtain rfl := List.length_eq_zero_iff.1 (Nat.le_zero.1 hshort)
        rw [attributes_nil]
        refine .cut ((hshrinks more).mono ?_)
        omega
      · exact hshrinks
    | succ limit => exact (single_continued (ih limit)).counted

end AttributeReader

end

/-! ## Whole files -/

open AttributeReader

section

variable {short long : Nat}

/-- Magic number and version are read alike from a beginning and from the whole. -/
theorem readVersion_continued : Continued short long readVersion readVersion := by
  apply Continued.u4.bind
  intro found
  split
  · exact .reject rfl
  · apply Continued.u2.bind
    intro minor
    apply Continued.u2.bind
    intro major
    split
    · exact .pure _
    · exact .reject rfl

theorem readInterfaces_continued (pool : ConstantPool) :
    Continued short long (readInterfaces pool) (readInterfaces pool) :=
  Continued.u2.counted.bind fun indices => .checked (unlocated_qualifiedClassNames pool indices)

/-- Fields and methods are read in the same way. -/
theorem member_continued {τ μ : Type} {typeAt : UInt16 → UInt16 → Except DecodeError τ}
    (build : UInt16 → String → τ → List Attribute → μ)
    (htypeAt : ∀ flags index, Unlocated (typeAt flags index)) (pool : ConstantPool) :
    let reader := fun limit => (do
      let flags ← u2
      let nameIndex ← u2
      let typeIndex ← u2
      let values ← attributes pool limit
      let name ← checked (pool.utf8 nameIndex)
      let type ← checked (typeAt flags typeIndex)
      return build flags name type values : Reader μ)
    Continued short long (reader short) (reader long) := by
  apply Continued.u2.bind
  intro flags
  apply Continued.u2.bind
  intro nameIndex
  apply Continued.u2.bind
  intro typeIndex
  apply (attributes_continued pool short long).bind
  intro values
  apply (Continued.checked (pool.unlocated_utf8 nameIndex)).bind
  intro name
  exact (Continued.checked (htypeAt flags typeIndex)).bind fun type => .pure _

theorem readField_continued (pool : ConstantPool) :
    Continued short long (readField pool short) (readField pool long) :=
  member_continued Field.mk (fun _ index => unlocated_fieldTypeAt pool index) pool

theorem readMethod_continued (pool : ConstantPool) :
    Continued short long (readMethod pool short) (readMethod pool long) :=
  member_continued Method.mk (unlocated_methodTypeAt pool) pool

/-- The end of the file is asked for before the last checks. -/
theorem endOfFile_bind_closed {α : Type} {next : Unit → Reader α}
    (h : Continued short long (next ()) (next ())) :
    Closed short long (endOfFile >>= next) (endOfFile >>= next) where
  closes := by
    intro input more hmore _ _
    cases input with
    | nil =>
      have hlonger : (endOfFile >>= next) more
          = .error (.rejected (.trailingBytes more.length)) := by
        cases more with
        | nil => exact absurd rfl hmore
        | cons first rest => rfl
      have hnext := h.continues [] [] (Nat.zero_le _) (Nat.zero_le _)
      rw [List.nil_append, hlonger]
      change Continues more (refuseMore more) (next () []) _
      generalize next () ([] ++ []) = same at hnext
      generalize next () [] = outcome at hnext
      cases hnext with
      | value value rest => exact .value value rest
      | definite hdefinite _ => exact .definite hdefinite rfl
      | cut => exact .cut trivial
    | cons first rest => exact .definite rfl rfl
  shrinks := by
    intro input
    cases input with
    | nil => exact h.shrinks []
    | cons first rest => exact trivial

/-- A whole file is closed by its end, whatever the limits. -/
theorem readClass_closed (short long : Nat) :
    Closed short long (readClass short) (readClass long) := by
  apply readVersion_continued.bind_closed
  intro version
  apply PoolReader.pool_continued.bind_closed
  intro pool
  apply Continued.u2.bind_closed
  intro flags
  apply Continued.u2.bind_closed
  intro nameIndex
  apply Continued.u2.bind_closed
  intro superIndex
  apply (readInterfaces_continued pool).bind_closed
  intro interfaces
  apply (readField_continued pool).counted.bind_closed
  intro fields
  apply (readMethod_continued pool).counted.bind_closed
  intro methods
  apply (attributes_continued pool short long).bind_closed
  intro values
  apply endOfFile_bind_closed
  apply (Continued.checked (unlocated_qualifiedClassName pool nameIndex)).bind
  intro name
  split
  · exact (Continued.pure none).bind fun _ => .pure _
  · exact ((Continued.checked (unlocated_qualifiedClassName pool superIndex)).map some).bind
      fun _ => .pure _

end

/-- A byte string is refused for another cause than its end. -/
def Refused (bytes : Bytes) : Prop :=
  ∃ error, decode bytes = .error error ∧ ∀ offset, error ≠ .truncated offset

/-- What is refused is not accepted. -/
theorem Refused.ne_ok {bytes : Bytes} (h : Refused bytes) (description : ClassDescription) :
    decode bytes ≠ .ok description := by
  obtain ⟨error, herror, _⟩ := h
  rw [herror]
  nofun

/-- What is refused is not taken for a cut file. -/
theorem Refused.ne_truncated {bytes : Bytes} (h : Refused bytes) (offset : Nat) :
    decode bytes ≠ .error (.truncated offset) := by
  obtain ⟨error, herror, hother⟩ := h
  rw [herror]
  intro hsame
  exact hother offset (Except.error.inj hsame)

/-- A definite outcome of reading the class is a refusal of the file. -/
theorem refused_of_definite {bytes : Bytes} (h : Definite (readClass bytes.length bytes)) :
    Refused bytes := by
  unfold Refused decode
  generalize readClass bytes.length bytes = outcome at h
  match outcome, h with
  | .error (.rejected error), h =>
    refine ⟨error, rfl, ?_⟩
    intro offset hsame
    rw [hsame] at h
    cases h
  | .error (.shape .unknownElementTag remaining), _ => exact ⟨_, rfl, nofun⟩
  | .error (.shape .nestingTooDeep remaining), _ => exact ⟨_, rfl, nofun⟩

/-- A file is truncated where the reader of the whole file runs out of bytes. -/
theorem exists_remaining {bytes : Bytes} {offset : Nat}
    (h : decode bytes = .error (.truncated offset)) :
    ∃ remaining, readClass bytes.length bytes = .error (.shape .endOfInput remaining)
      ∧ offset = bytes.length - remaining := by
  -- Any longer input will do: what follows a cut does not matter here.
  have hcloses := (readClass_closed bytes.length (bytes ++ [0]).length).closes bytes [0] (by simp)
    (Nat.le_refl _) (Nat.le_refl _)
  generalize readClass (bytes ++ [0]).length (bytes ++ [0]) = longer at hcloses
  generalize hread : readClass bytes.length bytes = outcome at hcloses
  cases hcloses with
  | value description rest =>
    rw [decode, hread] at h
    cases h
  | definite hdefinite _ =>
    rw [← hread] at hdefinite
    exact absurd h ((refused_of_definite hdefinite).ne_truncated offset)
  | @cut remaining _ _ =>
    rw [decode, hread] at h
    cases h
    exact ⟨remaining, rfl, rfl⟩

/-- What decoding says of a byte string decides what it says of a longer one. -/
theorem decode_append_cases (bytes : Bytes) {more : Bytes} (hmore : more ≠ []) :
    ((∃ description, decode bytes = .ok description)
        ∧ decode (bytes ++ more) = .error (.trailingBytes more.length))
      ∨ (Refused bytes ∧ Refused (bytes ++ more))
      ∨ ∃ offset, decode bytes = .error (.truncated offset) ∧ offset ≤ bytes.length
        ∧ ∀ later, decode (bytes ++ more) = .error (.truncated later) → offset ≤ later := by
  have hcloses := (readClass_closed bytes.length (bytes ++ more).length).closes bytes more hmore
    (Nat.le_refl _) (Nat.le_refl _)
  generalize hshort : readClass bytes.length bytes = outcome at hcloses
  generalize hlong : readClass (bytes ++ more).length (bytes ++ more) = longer at hcloses
  cases hcloses with
  | value description rest =>
    refine .inl ⟨⟨description, ?_⟩, ?_⟩
    · rw [decode, hshort]
    · rw [decode, hlong, refuseMore]
  | definite h h' =>
    rw [← hshort] at h
    rw [← hlong] at h'
    exact .inr (.inl ⟨refused_of_definite h, refused_of_definite h'⟩)
  | @cut remaining _ h =>
    refine .inr (.inr ⟨bytes.length - remaining, ?_, Nat.sub_le _ _, ?_⟩)
    · rw [decode, hshort]
    · intro later hlater
      obtain ⟨remaining', hremaining, rfl⟩ := exists_remaining hlater
      rw [hremaining] at hlong
      rw [← hlong] at h
      have hleft : remaining' ≤ remaining + more.length := h
      rw [List.length_append]
      omega

/-- How decoding treats the beginnings and the continuations of a byte string. -/
structure RecognisesCuts (bytes : Bytes) : Prop where
  /-- Every cut of an accepted file is reported, within what is left of it. -/
  accepted_cut : ∀ description shorter, decode bytes = .ok description → shorter <+: bytes →
    shorter ≠ bytes → ∃ offset, decode shorter = .error (.truncated offset)
      ∧ offset ≤ shorter.length
  /-- A further cut is reported no later than the cut before. -/
  truncated_cut : ∀ offset shorter, decode bytes = .error (.truncated offset) →
    shorter <+: bytes → shorter ≠ bytes → ∃ earlier, decode shorter = .error (.truncated earlier)
      ∧ earlier ≤ shorter.length ∧ earlier ≤ offset
  /-- Bytes behind an accepted file are counted. -/
  trailing : ∀ description more, decode bytes = .ok description → more ≠ [] →
    decode (bytes ++ more) = .error (.trailingBytes more.length)
  /-- An accepted file is not the beginning of another one. -/
  accepted_alone : ∀ description other longer, decode bytes = .ok description →
    decode longer = .ok other → bytes <+: longer → bytes = longer
  /-- No bytes behind it mend what is refused for another cause. -/
  refused_for_good : ∀ error description longer, decode bytes = .error error →
    (∀ offset, error ≠ .truncated offset) → bytes <+: longer → decode longer ≠ .ok description

/-- A proper beginning leaves some bytes away. -/
theorem exists_append_of_isPrefix {shorter bytes : Bytes} (h : shorter <+: bytes)
    (hne : shorter ≠ bytes) : ∃ more, more ≠ [] ∧ shorter ++ more = bytes := by
  obtain ⟨more, rfl⟩ := h
  refine ⟨more, ?_, rfl⟩
  rintro rfl
  exact hne (List.append_nil shorter).symm

/-- A proper beginning of an accepted file is reported as cut, within what is left of it. -/
theorem exists_truncated_of_ok {shorter bytes : Bytes} {description : ClassDescription}
    (h : decode bytes = .ok description) (hbegins : shorter <+: bytes) (hne : shorter ≠ bytes) :
    ∃ offset, decode shorter = .error (.truncated offset) ∧ offset ≤ shorter.length := by
  obtain ⟨more, hmore, rfl⟩ := exists_append_of_isPrefix hbegins hne
  rcases decode_append_cases shorter hmore with ⟨_, htrailing⟩ | ⟨_, hrefused⟩ | hcut
  · rw [h] at htrailing
    cases htrailing
  · exact absurd h (hrefused.ne_ok description)
  · obtain ⟨offset, htruncated, hle, _⟩ := hcut
    exact ⟨offset, htruncated, hle⟩

/-- A proper beginning of a cut file is reported as cut, and no later. -/
theorem exists_truncated_of_truncated {shorter bytes : Bytes} {offset : Nat}
    (h : decode bytes = .error (.truncated offset)) (hbegins : shorter <+: bytes)
    (hne : shorter ≠ bytes) :
    ∃ earlier, decode shorter = .error (.truncated earlier)
      ∧ earlier ≤ shorter.length ∧ earlier ≤ offset := by
  obtain ⟨more, hmore, rfl⟩ := exists_append_of_isPrefix hbegins hne
  rcases decode_append_cases shorter hmore with ⟨_, htrailing⟩ | ⟨_, hrefused⟩ | hcut
  · rw [h] at htrailing
    cases htrailing
  · exact absurd h (hrefused.ne_truncated offset)
  · obtain ⟨earlier, hearlier, hle, hearliest⟩ := hcut
    exact ⟨earlier, hearlier, hle, hearliest offset h⟩

/-- Bytes behind an accepted file are counted as trailing. -/
theorem decode_append_of_ok {bytes more : Bytes} {description : ClassDescription}
    (h : decode bytes = .ok description) (hmore : more ≠ []) :
    decode (bytes ++ more) = .error (.trailingBytes more.length) := by
  rcases decode_append_cases bytes hmore with ⟨_, htrailing⟩ | ⟨hrefused, _⟩ | hcut
  · exact htrailing
  · exact absurd h (hrefused.ne_ok description)
  · obtain ⟨offset, htruncated, _⟩ := hcut
    rw [h] at htruncated
    cases htruncated

/-- Truncation is recognised at every cut of every byte string. -/
theorem decode_recognises_cuts (bytes : Bytes) : RecognisesCuts bytes where
  accepted_cut description shorter := exists_truncated_of_ok
  truncated_cut offset shorter := exists_truncated_of_truncated
  trailing description more := decode_append_of_ok
  accepted_alone := by
    intro description other longer haccepted hother hbegins
    by_contra hne
    obtain ⟨offset, htruncated, _⟩ := exists_truncated_of_ok hother hbegins hne
    rw [haccepted] at htruncated
    cases htruncated
  refused_for_good := by
    intro error description longer herror hcause hbegins haccepted
    by_cases hsame : bytes = longer
    · rw [← hsame, herror] at haccepted
      cases haccepted
    · obtain ⟨offset, htruncated, _⟩ := exists_truncated_of_ok haccepted hbegins hsame
      rw [herror] at htruncated
      exact hcause offset (Except.error.inj htruncated)

/-- The file of a class `A` without fields, methods and attributes. -/
def bareFile : Bytes :=
  [0xCA, 0xFE, 0xBA, 0xBE, 0x00, 0x00, 0x00, 0x34, 0x00, 0x03, 0x01, 0x00, 0x01, 0x41, 0x07, 0x00,
    0x01, 0x00, 0x21, 0x00, 0x02, 0x00, 0x00, 0x00, 0x00, 0x00, 0x00, 0x00, 0x00, 0x00, 0x00]

/-- The file is accepted. A cut of it is reported, and a further cut no later; two bytes behind it
are counted, and it is not the beginning of another file. What is refused for its first four bytes
stays refused. -/
theorem recognises_cuts_bareFile :
    ∃ description offset earlier, decode bareFile = .ok description
      ∧ decode (bareFile.take 20) = .error (.truncated offset) ∧ offset ≤ 20
      ∧ decode (bareFile.take 13) = .error (.truncated earlier) ∧ earlier ≤ 13 ∧ earlier ≤ offset
      ∧ decode (bareFile ++ [0, 0]) = .error (.trailingBytes 2)
      ∧ (∀ other longer, decode longer = .ok other → bareFile <+: longer → bareFile = longer)
      ∧ decode [0xCA, 0xFE, 0xBA, 0xBF] = .error (.badMagic 0xCAFEBABF)
      ∧ ∀ other longer, [0xCA, 0xFE, 0xBA, 0xBF] <+: longer → decode longer ≠ .ok other := by
  have haccepted : (decode bareFile).toOption.isSome = true := by decide +kernel
  have hrefused : decode [0xCA, 0xFE, 0xBA, 0xBF] = .error (.badMagic 0xCAFEBABF) := rfl
  cases hread : decode bareFile with
  | error error =>
    rw [hread] at haccepted
    cases haccepted
  | ok description =>
    have hcuts := decode_recognises_cuts bareFile
    obtain ⟨offset, hcut, hle⟩ := hcuts.accepted_cut description (bareFile.take 20) hread
      (List.take_prefix 20 bareFile) (by decide)
    obtain ⟨earlier, hfurther, hearlier, hbefore⟩ :=
      (decode_recognises_cuts (bareFile.take 20)).truncated_cut offset (bareFile.take 13) hcut
        (List.take_prefix_take_left (by decide)) (by decide)
    refine ⟨description, offset, earlier, rfl, hcut, hle, hfurther, hearlier, hbefore, ?_, ?_,
      hrefused, ?_⟩
    · exact hcuts.trailing description [0, 0] hread (by decide)
    · exact fun other longer => hcuts.accepted_alone description other longer hread
    · intro other longer
      exact (decode_recognises_cuts [0xCA, 0xFE, 0xBA, 0xBF]).refused_for_good _ other longer
        hrefused nofun

end ClassAtlas
