import ClassAtlas.ClassFile.AttributeReader
import ClassAtlas.ClassFile.Decode
import ClassAtlas.Proofs.ClassFile.Meaning
import ClassAtlas.Proofs.ClassFile.ReaderExactness

/-!
# Exactness of the constant pool

The look-ups of a pool succeed exactly where an index leads to a constant of the
kind they ask for, and the check of a whole pool succeeds exactly when all its
constants resolve. The reader of the pool accepts exactly the bytes of constants
that fill the declared number of slots.
-/

namespace ClassAtlas

/-- One check after the other. -/
theorem check_bind_eq_ok_iff {α γ : Type} {first : Except DecodeError α}
    {next : α → Except DecodeError γ} {value : γ} :
    (first >>= next) = .ok value ↔ ∃ found, first = .ok found ∧ next found = .ok value := by
  cases first with
  | error error => simp [bind, Except.bind]
  | ok found => simp [bind, Except.bind]

/-- The checks of a list succeed when each of them does. -/
theorem check_mapM_eq_ok_iff {α γ : Type} {check : α → Except DecodeError γ} {items : List α}
    {values : List γ} :
    items.mapM check = .ok values
      ↔ List.Forall₂ (fun item value => check item = .ok value) items values := by
  induction items generalizing values with
  | nil =>
    rw [List.mapM_nil, List.forall₂_nil_left_iff]
    constructor
    · intro h
      exact (Except.ok.inj h).symm
    · rintro rfl
      rfl
  | cons item items ih =>
    rw [List.mapM_cons, check_bind_eq_ok_iff]
    constructor
    · rintro ⟨value, hvalue, hothers⟩
      obtain ⟨others, hitems, hpure⟩ := check_bind_eq_ok_iff.1 hothers
      cases hpure
      exact .cons hvalue (ih.1 hitems)
    · intro h
      cases h with
      | cons hvalue hothers =>
        exact ⟨_, hvalue, check_bind_eq_ok_iff.2 ⟨_, ih.2 hothers, rfl⟩⟩

namespace ConstantPool

variable {pool : ConstantPool} {index : UInt16}

/-- A constant is looked up exactly where the pool holds it. -/
theorem get_eq_ok_iff {constant : Constant} :
    pool.get index = .ok constant ↔ pool.Holds index constant := by
  unfold get Holds
  by_cases hzero : index = 0
  · simp [hzero]
  · rw [if_neg hzero]
    cases hslot : pool.slots[index.toNat - 1]? with
    | none => simp
    | some slot =>
      cases slot with
      | phantom => simp
      | usable found => simp [hzero]

theorem utf8_eq_ok_iff {text : String} :
    pool.utf8 index = .ok text ↔ pool.Holds index (.utf8 text) := by
  unfold utf8
  rw [check_bind_eq_ok_iff]
  constructor
  · rintro ⟨constant, hget, hmatch⟩
    split at hmatch
    · cases hmatch
      exact get_eq_ok_iff.1 hget
    · cases hmatch
  · intro h
    exact ⟨_, get_eq_ok_iff.2 h, rfl⟩

/-- The name of a class is looked up exactly where the pool holds the class. -/
theorem className_eq_ok_iff {internal : String} :
    pool.className index = .ok internal ↔ pool.HoldsClass index internal := by
  unfold className HoldsClass
  rw [check_bind_eq_ok_iff]
  constructor
  · rintro ⟨constant, hget, hmatch⟩
    split at hmatch
    · next nameIndex => exact ⟨nameIndex, get_eq_ok_iff.1 hget, utf8_eq_ok_iff.1 hmatch⟩
    · cases hmatch
  · rintro ⟨nameIndex, hclass, hname⟩
    exact ⟨_, get_eq_ok_iff.2 hclass, utf8_eq_ok_iff.2 hname⟩

theorem string_eq_ok_iff {text : String} :
    pool.string index = .ok text
      ↔ ∃ textIndex, pool.Holds index (.stringEntry textIndex)
        ∧ pool.Holds textIndex (.utf8 text) := by
  unfold string
  rw [check_bind_eq_ok_iff]
  constructor
  · rintro ⟨constant, hget, hmatch⟩
    split at hmatch
    · next textIndex => exact ⟨textIndex, get_eq_ok_iff.1 hget, utf8_eq_ok_iff.1 hmatch⟩
    · cases hmatch
  · rintro ⟨textIndex, hstring, htext⟩
    exact ⟨_, get_eq_ok_iff.2 hstring, utf8_eq_ok_iff.2 htext⟩

theorem nameAndType_eq_ok_iff {name descriptor : String} :
    pool.nameAndType index = .ok (name, descriptor)
      ↔ pool.HoldsNameAndType index name descriptor := by
  unfold nameAndType HoldsNameAndType
  rw [check_bind_eq_ok_iff]
  constructor
  · rintro ⟨constant, hget, hmatch⟩
    split at hmatch
    · next nameIndex descriptorIndex =>
      obtain ⟨first, hfirst, hrest⟩ := check_bind_eq_ok_iff.1 hmatch
      obtain ⟨second, hsecond, hpair⟩ := check_bind_eq_ok_iff.1 hrest
      cases hpair
      exact ⟨nameIndex, descriptorIndex, get_eq_ok_iff.1 hget, utf8_eq_ok_iff.1 hfirst,
        utf8_eq_ok_iff.1 hsecond⟩
    · cases hmatch
  · rintro ⟨nameIndex, descriptorIndex, hpair, hname, hdescriptor⟩
    refine ⟨_, get_eq_ok_iff.2 hpair, ?_⟩
    exact check_bind_eq_ok_iff.2 ⟨name, utf8_eq_ok_iff.2 hname,
      check_bind_eq_ok_iff.2 ⟨descriptor, utf8_eq_ok_iff.2 hdescriptor, rfl⟩⟩

/-- A member can be looked up exactly where the pool holds one. -/
theorem exists_memberRef_eq_ok_iff :
    (∃ found, pool.memberRef index = .ok found) ↔ pool.HoldsMember index := by
  unfold memberRef HoldsMember
  constructor
  · rintro ⟨found, hfound⟩
    obtain ⟨constant, hget, hmatch⟩ := check_bind_eq_ok_iff.1 hfound
    split at hmatch
    · next kind classIndex nameAndTypeIndex =>
      obtain ⟨⟨name, descriptor⟩, hpair, hrest⟩ := check_bind_eq_ok_iff.1 hmatch
      obtain ⟨internal, hclass, _⟩ := check_bind_eq_ok_iff.1 hrest
      exact ⟨kind, classIndex, nameAndTypeIndex, get_eq_ok_iff.1 hget,
        ⟨internal, className_eq_ok_iff.1 hclass⟩, name, descriptor, nameAndType_eq_ok_iff.1 hpair⟩
    · cases hmatch
  · rintro ⟨kind, classIndex, nameAndTypeIndex, hmember, ⟨internal, hclass⟩, name, descriptor,
      hpair⟩
    refine ⟨⟨kind, internal, name, descriptor⟩, check_bind_eq_ok_iff.2 ⟨_, get_eq_ok_iff.2 hmember, ?_⟩⟩
    exact check_bind_eq_ok_iff.2 ⟨_, nameAndType_eq_ok_iff.2 hpair,
      check_bind_eq_ok_iff.2 ⟨_, className_eq_ok_iff.2 hclass, rfl⟩⟩

/-- A check whose value is dropped succeeds when there is a value. -/
theorem check_dropped_eq_ok_iff {α : Type} {check : Except DecodeError α} :
    (check >>= fun _ => Except.ok ()) = .ok () ↔ ∃ value, check = .ok value := by
  rw [check_bind_eq_ok_iff]
  simp

/-- The check of one constant follows all of its indices. -/
theorem validateConstant_eq_ok_iff {constant : Constant} :
    pool.validateConstant constant = .ok () ↔ pool.Resolves constant := by
  cases constant with
  | utf8 | integer | float | long | double => simp [validateConstant, Resolves]
  | classEntry index | moduleEntry index | packageEntry index | stringEntry index
  | methodType index =>
    rw [validateConstant, check_dropped_eq_ok_iff, Resolves]
    exact exists_congr fun text => utf8_eq_ok_iff
  | member kind classIndex nameAndTypeIndex =>
    rw [validateConstant, check_bind_eq_ok_iff, Resolves]
    simp only [check_dropped_eq_ok_iff, className_eq_ok_iff, Prod.exists, nameAndType_eq_ok_iff,
      exists_and_right]
  | nameAndType nameIndex descriptorIndex =>
    rw [validateConstant, check_bind_eq_ok_iff, Resolves]
    simp only [check_dropped_eq_ok_iff, utf8_eq_ok_iff, exists_and_right]
  | methodHandle kind index =>
    rw [validateConstant, check_dropped_eq_ok_iff, Resolves, exists_memberRef_eq_ok_iff]
  | dynamic bootstrap index | invokeDynamic bootstrap index =>
    rw [validateConstant, check_dropped_eq_ok_iff, Resolves]
    simp only [Prod.exists, nameAndType_eq_ok_iff]

/-- All constants pass the check exactly if each resolves. -/
theorem validateAll_eq_ok_iff {constants : List (UInt16 × Constant)} :
    pool.validateAll constants = .ok ()
      ↔ ∀ numbered ∈ constants, pool.Resolves numbered.2 := by
  induction constants with
  | nil => simp [validateAll]
  | cons numbered constants ih =>
    obtain ⟨number, constant⟩ := numbered
    rw [List.forall_mem_cons, ← ih, ← validateConstant_eq_ok_iff]
    rw [validateAll]
    cases hconstant : pool.validateConstant constant with
    | ok _ => simp
    | error error => simp

/-- The constants with an index are those of the usable slots. -/
theorem mem_entries_iff {constant : Constant} :
    (∃ number, (number, constant) ∈ pool.entries) ↔ .usable constant ∈ pool.slots := by
  unfold entries
  constructor
  · rintro ⟨number, hmem⟩
    obtain ⟨⟨slot, position⟩, hslot, hsome⟩ := List.mem_filterMap.1 hmem
    cases slot with
    | phantom => cases hsome
    | usable found =>
      cases hsome
      exact Array.mem_toList_iff.1 (List.fst_mem_of_mem_zipIdx hslot)
  · intro hmem
    rw [← Array.mem_toList_iff, ← List.zipIdx_map_fst 1 pool.slots.toList] at hmem
    obtain ⟨⟨slot, position⟩, hslot, rfl⟩ := List.mem_map.1 hmem
    exact ⟨_, List.mem_filterMap.2 ⟨_, hslot, rfl⟩⟩

/-- The check of a pool succeeds exactly when all its constants resolve. -/
theorem validate_eq_ok_iff : pool.validate = .ok () ↔ pool.CrossReferenced := by
  rw [validate, validateAll_eq_ok_iff]
  constructor
  · intro h constant hmem
    obtain ⟨number, hentry⟩ := mem_entries_iff.2 hmem
    exact h _ hentry
  · rintro h ⟨number, constant⟩ hentry
    exact h constant (mem_entries_iff.1 ⟨number, hentry⟩)

end ConstantPool

namespace PoolReader

open Reader

variable {index : UInt16} {input rest : Bytes} {constant : Constant}

/-- A constant made of one number is accepted where the number stands. -/
theorem field_eq_ok_iff {α : Type} {reader : Reader α} {write : α → Bytes}
    {build : α → Constant}
    (hreader : ∀ {input rest value},
      reader input = .ok (value, rest) ↔ input = write value ++ rest) :
    (reader >>= fun value => pure (build value)) input = .ok (constant, rest)
      ↔ ∃ value, constant = build value ∧ input = write value ++ rest := by
  simp only [bind_eq_ok_iff, pure_eq_ok_iff, hreader]
  constructor
  · rintro ⟨value, middle, rfl, rfl, rfl⟩
    exact ⟨value, rfl, rfl⟩
  · rintro ⟨value, rfl, rfl⟩
    exact ⟨value, rest, rfl, rfl, rfl⟩

/-- A constant of two indices is read from the bytes of both. -/
theorem indexPair_eq_ok_iff {build : UInt16 → UInt16 → Constant} :
    indexPair build input = .ok (constant, rest)
      ↔ ∃ first second, constant = build first second
        ∧ input = u2Bytes first ++ u2Bytes second ++ rest := by
  rw [indexPair]
  simp only [bind_eq_ok_iff, pure_eq_ok_iff, u2_eq_ok_iff, List.append_assoc]
  constructor
  · rintro ⟨first, _, rfl, second, _, rfl, rfl, rfl⟩
    exact ⟨first, second, rfl, rfl⟩
  · rintro ⟨first, second, rfl, rfl⟩
    exact ⟨first, _, rfl, second, _, rfl, rfl, rfl⟩

/-- A text constant is accepted when its bytes are a text. -/
theorem utf8_reader_eq_ok_iff :
    utf8 index input = .ok (constant, rest)
      ↔ ∃ bytes : Bytes, ConstantMeans (.text bytes) constant
        ∧ input = bigEndianBytes 2 bytes.length ++ bytes ++ rest := by
  rw [utf8]
  simp only [bind_eq_ok_iff, u2_eq_ok_iff, take_eq_ok_iff]
  constructor
  · rintro ⟨length, _, rfl, bytes, middle, ⟨hlength, rfl⟩, hdecode⟩
    cases htext : Text.decodeConstant? bytes with
    | none =>
      rw [htext] at hdecode
      exact (reject_eq_ok_iff.1 hdecode).elim
    | some text =>
      rw [htext] at hdecode
      obtain ⟨rfl, rfl⟩ := pure_eq_ok_iff.1 hdecode
      have hshort : bytes.length < 0x10000 := by
        rw [hlength]
        exact length.toNat_lt
      refine ⟨bytes, ⟨hshort, text, htext, rfl⟩, ?_⟩
      rw [hlength, u2Bytes, List.append_assoc]
  · rintro ⟨bytes, ⟨hshort, text, htext, rfl⟩, rfl⟩
    have hnumber : (UInt16.ofNat bytes.length).toNat = bytes.length :=
      UInt16.toNat_ofNat_of_lt' hshort
    refine ⟨UInt16.ofNat bytes.length, bytes ++ rest, ?_, bytes, rest, ⟨hnumber.symm, rfl⟩, ?_⟩
    · rw [u2Bytes, hnumber, List.append_assoc]
    · rw [htext]
      exact pure_eq_ok_iff.2 ⟨rfl, rfl⟩

/-- A constant that is no text is accepted behind its tag. -/
theorem eq_of_tagged {tag : UInt8} (hplain : tag ≠ 1)
    (h : tagged tag index input = .ok (constant, rest)) :
    constant.isText = false ∧ constant.tag = tag ∧ input = constant.payload ++ rest := by
  generalize hreader : tagged tag index = reader at h
  unfold tagged at hreader
  split at hreader <;> rename_i hnumber <;> subst hreader
  · exact absurd (UInt8.toNat_inj.1 hnumber) hplain
  · obtain ⟨value, rfl, rfl⟩ := (field_eq_ok_iff u4_eq_ok_iff).1 h
    exact ⟨rfl, (UInt8.toNat_inj.1 hnumber).symm, rfl⟩
  · obtain ⟨value, rfl, rfl⟩ := (field_eq_ok_iff u4_eq_ok_iff).1 h
    exact ⟨rfl, (UInt8.toNat_inj.1 hnumber).symm, rfl⟩
  · obtain ⟨value, rfl, rfl⟩ := (field_eq_ok_iff u8_eq_ok_iff).1 h
    exact ⟨rfl, (UInt8.toNat_inj.1 hnumber).symm, rfl⟩
  · obtain ⟨value, rfl, rfl⟩ := (field_eq_ok_iff u8_eq_ok_iff).1 h
    exact ⟨rfl, (UInt8.toNat_inj.1 hnumber).symm, rfl⟩
  · obtain ⟨value, rfl, rfl⟩ := (field_eq_ok_iff u2_eq_ok_iff).1 h
    exact ⟨rfl, (UInt8.toNat_inj.1 hnumber).symm, rfl⟩
  · obtain ⟨value, rfl, rfl⟩ := (field_eq_ok_iff u2_eq_ok_iff).1 h
    exact ⟨rfl, (UInt8.toNat_inj.1 hnumber).symm, rfl⟩
  · obtain ⟨first, second, rfl, rfl⟩ := indexPair_eq_ok_iff.1 h
    exact ⟨rfl, (UInt8.toNat_inj.1 hnumber).symm, rfl⟩
  · obtain ⟨first, second, rfl, rfl⟩ := indexPair_eq_ok_iff.1 h
    exact ⟨rfl, (UInt8.toNat_inj.1 hnumber).symm, rfl⟩
  · obtain ⟨first, second, rfl, rfl⟩ := indexPair_eq_ok_iff.1 h
    exact ⟨rfl, (UInt8.toNat_inj.1 hnumber).symm, rfl⟩
  · obtain ⟨first, second, rfl, rfl⟩ := indexPair_eq_ok_iff.1 h
    exact ⟨rfl, (UInt8.toNat_inj.1 hnumber).symm, rfl⟩
  · obtain ⟨kind, middle, hkind, hread⟩ := bind_eq_ok_iff.1 h
    obtain ⟨value, rfl, rfl⟩ := (field_eq_ok_iff u2_eq_ok_iff).1 hread
    obtain rfl := u1_eq_ok_iff.1 hkind
    exact ⟨rfl, (UInt8.toNat_inj.1 hnumber).symm, rfl⟩
  · obtain ⟨value, rfl, rfl⟩ := (field_eq_ok_iff u2_eq_ok_iff).1 h
    exact ⟨rfl, (UInt8.toNat_inj.1 hnumber).symm, rfl⟩
  · obtain ⟨first, second, rfl, rfl⟩ := indexPair_eq_ok_iff.1 h
    exact ⟨rfl, (UInt8.toNat_inj.1 hnumber).symm, rfl⟩
  · obtain ⟨first, second, rfl, rfl⟩ := indexPair_eq_ok_iff.1 h
    exact ⟨rfl, (UInt8.toNat_inj.1 hnumber).symm, rfl⟩
  · obtain ⟨value, rfl, rfl⟩ := (field_eq_ok_iff u2_eq_ok_iff).1 h
    exact ⟨rfl, (UInt8.toNat_inj.1 hnumber).symm, rfl⟩
  · obtain ⟨value, rfl, rfl⟩ := (field_eq_ok_iff u2_eq_ok_iff).1 h
    exact ⟨rfl, (UInt8.toNat_inj.1 hnumber).symm, rfl⟩
  · exact (reject_eq_ok_iff.1 h).elim

/-- A constant that is no text is read back from what follows its tag. -/
theorem tagged_tag_payload (hplain : constant.isText = false) :
    tagged constant.tag index (constant.payload ++ rest) = .ok (constant, rest) := by
  cases constant with
  | utf8 text => cases hplain
  | integer value =>
    change (u4 >>= fun bits => pure (Constant.integer bits.toInt32)) _ = _
    exact (field_eq_ok_iff u4_eq_ok_iff).2 ⟨value.toUInt32, by rw [Int32.toInt32_toUInt32], rfl⟩
  | float bits =>
    change (u4 >>= fun bits => pure (Constant.float bits)) _ = _
    exact (field_eq_ok_iff u4_eq_ok_iff).2 ⟨bits, rfl, rfl⟩
  | long value =>
    change (u8 >>= fun bits => pure (Constant.long bits.toInt64)) _ = _
    exact (field_eq_ok_iff u8_eq_ok_iff).2 ⟨value.toUInt64, by rw [Int64.toInt64_toUInt64], rfl⟩
  | double bits =>
    change (u8 >>= fun bits => pure (Constant.double bits)) _ = _
    exact (field_eq_ok_iff u8_eq_ok_iff).2 ⟨bits, rfl, rfl⟩
  | classEntry nameIndex =>
    change (u2 >>= fun index => pure (Constant.classEntry index)) _ = _
    exact (field_eq_ok_iff u2_eq_ok_iff).2 ⟨nameIndex, rfl, rfl⟩
  | stringEntry textIndex =>
    change (u2 >>= fun index => pure (Constant.stringEntry index)) _ = _
    exact (field_eq_ok_iff u2_eq_ok_iff).2 ⟨textIndex, rfl, rfl⟩
  | member kind classIndex nameAndTypeIndex =>
    cases kind <;> exact indexPair_eq_ok_iff.2 ⟨classIndex, nameAndTypeIndex, rfl, rfl⟩
  | nameAndType nameIndex descriptorIndex =>
    exact indexPair_eq_ok_iff.2 ⟨nameIndex, descriptorIndex, rfl, rfl⟩
  | methodHandle kind referenceIndex =>
    change (u1 >>= fun kind => u2 >>= fun index => pure (Constant.methodHandle kind index)) _ = _
    refine bind_eq_ok_iff.2 ⟨kind, u2Bytes referenceIndex ++ rest, u1_eq_ok_iff.2 rfl, ?_⟩
    exact (field_eq_ok_iff u2_eq_ok_iff).2 ⟨referenceIndex, rfl, rfl⟩
  | methodType descriptorIndex =>
    change (u2 >>= fun index => pure (Constant.methodType index)) _ = _
    exact (field_eq_ok_iff u2_eq_ok_iff).2 ⟨descriptorIndex, rfl, rfl⟩
  | dynamic bootstrapIndex nameAndTypeIndex =>
    exact indexPair_eq_ok_iff.2 ⟨bootstrapIndex, nameAndTypeIndex, rfl, rfl⟩
  | invokeDynamic bootstrapIndex nameAndTypeIndex =>
    exact indexPair_eq_ok_iff.2 ⟨bootstrapIndex, nameAndTypeIndex, rfl, rfl⟩
  | moduleEntry nameIndex =>
    change (u2 >>= fun index => pure (Constant.moduleEntry index)) _ = _
    exact (field_eq_ok_iff u2_eq_ok_iff).2 ⟨nameIndex, rfl, rfl⟩
  | packageEntry nameIndex =>
    change (u2 >>= fun index => pure (Constant.packageEntry index)) _ = _
    exact (field_eq_ok_iff u2_eq_ok_iff).2 ⟨nameIndex, rfl, rfl⟩

/-- The reader of one constant accepts exactly the bytes of constants with a meaning. -/
theorem constant_eq_ok_iff :
    PoolReader.constant index input = .ok (constant, rest)
      ↔ ∃ raw, ConstantMeans raw constant ∧ input = raw.bytes ++ rest := by
  rw [PoolReader.constant, bind_eq_ok_iff]
  constructor
  · rintro ⟨tag, middle, htag, hread⟩
    obtain rfl := u1_eq_ok_iff.1 htag
    by_cases htext : tag = 1
    · subst htext
      obtain ⟨bytes, hmeans, rfl⟩ := utf8_reader_eq_ok_iff.1 hread
      exact ⟨.text bytes, hmeans, rfl⟩
    · obtain ⟨hplain, rfl, rfl⟩ := eq_of_tagged htext hread
      exact ⟨.entry constant hplain, rfl, rfl⟩
  · rintro ⟨raw, hmeans, rfl⟩
    cases raw with
    | text bytes =>
      refine ⟨1, bigEndianBytes 2 bytes.length ++ bytes ++ rest, u1_eq_ok_iff.2 rfl, ?_⟩
      exact utf8_reader_eq_ok_iff.2 ⟨bytes, hmeans, rfl⟩
    | entry kept hplain =>
      obtain rfl : constant = kept := hmeans
      exact ⟨constant.tag, constant.payload ++ rest, u1_eq_ok_iff.2 rfl, tagged_tag_payload hplain⟩

/-! ## Filling the slots -/

/-- A constant fills as many slots as its raw form says. -/
theorem length_slots {raw : RawConstant} (h : ConstantMeans raw constant) :
    constant.slots.length = raw.slotCount := by
  cases raw with
  | text bytes =>
    obtain ⟨_, text, _, rfl⟩ := h
    rfl
  | entry kept hplain =>
    obtain rfl : constant = kept := h
    rw [Constant.slots, RawConstant.slotCount]
    split <;> rfl

/-- Every constant fills a slot. -/
theorem slotCount_pos (raw : RawConstant) : 0 < raw.slotCount := by
  cases raw with
  | text bytes => exact Nat.one_pos
  | entry kept hplain =>
    rw [RawConstant.slotCount]
    split <;> decide

/-- One constant fills its slots, and the others fill what is missing behind it. -/
theorem slotsBehind_succ_eq_ok_iff {missing : Nat} {filled slots : Array PoolSlot} :
    slotsBehind (missing + 1) filled input = .ok (slots, rest)
      ↔ ∃ constant middle behind,
        PoolReader.constant (UInt16.ofNat (filled.size + 1)) input = .ok (constant, middle)
        ∧ constant.slots.length + behind = missing + 1
        ∧ slotsBehind behind (filled ++ constant.slots) middle = .ok (slots, rest) := by
  simp only [slotsBehind]
  cases hread : PoolReader.constant (UInt16.ofNat (filled.size + 1)) input with
  | error fault => simp
  | ok read =>
    obtain ⟨constant, middle⟩ := read
    simp only [Except.ok.injEq, Prod.mk.injEq]
    by_cases hwide : constant.isWide = true
    · have hslots : constant.slots = [.usable constant, .phantom] := if_pos hwide
      rw [if_pos hwide]
      cases missing with
      | zero =>
        simp only [reduceCtorEq, false_iff]
        rintro ⟨found, _, behind, ⟨rfl, rfl⟩, hcount, _⟩
        rw [hslots, List.length_cons, List.length_singleton] at hcount
        omega
      | succ missing =>
        constructor
        · intro h
          refine ⟨constant, middle, missing, ⟨rfl, rfl⟩, ?_, ?_⟩
          · rw [hslots, List.length_cons, List.length_singleton]
            omega
          · rw [hslots]
            exact h
        · rintro ⟨_, _, behind, ⟨rfl, rfl⟩, hcount, h⟩
          rw [hslots, List.length_cons, List.length_singleton] at hcount
          obtain rfl : behind = missing := by omega
          rw [hslots] at h
          exact h
    · have hslots : constant.slots = [.usable constant] := if_neg hwide
      rw [if_neg hwide]
      constructor
      · intro h
        refine ⟨constant, middle, missing, ⟨rfl, rfl⟩, ?_, ?_⟩
        · rw [hslots, List.length_singleton]
          omega
        · rw [hslots]
          exact h
      · rintro ⟨_, _, behind, ⟨rfl, rfl⟩, hcount, h⟩
        rw [hslots, List.length_singleton] at hcount
        obtain rfl : behind = missing := by omega
        rw [hslots] at h
        exact h

/-- Constants in a row fill the missing slots. The induction is on the number of missing
slots, of which a wide constant takes two. -/
theorem slotsBehind_eq_ok_iff {missing : Nat} {filled slots : Array PoolSlot} :
    slotsBehind missing filled input = .ok (slots, rest)
      ↔ ∃ raws constants, List.Forall₂ ConstantMeans raws constants
        ∧ (raws.map RawConstant.slotCount).sum = missing
        ∧ slots.toList = filled.toList ++ constants.flatMap Constant.slots
        ∧ input = raws.flatMap RawConstant.bytes ++ rest := by
  induction missing using Nat.strong_induction_on generalizing filled input with
  | _ missing ih =>
    cases missing with
    | zero =>
      rw [slotsBehind, Except.ok.injEq, Prod.mk.injEq]
      constructor
      · rintro ⟨rfl, rfl⟩
        exact ⟨[], [], .nil, rfl, by simp, rfl⟩
      · rintro ⟨raws, constants, hmeans, hcount, hslots, rfl⟩
        cases hmeans with
        | nil => exact ⟨Array.toList_inj.1 (by simpa using hslots.symm), rfl⟩
        | @cons raw constant _ _ hraw _ =>
          have hpos := slotCount_pos raw
          rw [List.map_cons, List.sum_cons] at hcount
          omega
    | succ missing =>
      rw [slotsBehind_succ_eq_ok_iff]
      constructor
      · rintro ⟨constant, middle, behind, hread, hcount, hbehind⟩
        obtain ⟨raw, hraw, rfl⟩ := constant_eq_ok_iff.1 hread
        have hlength := length_slots hraw
        have hpos := slotCount_pos raw
        obtain ⟨raws, constants, hmeans, rfl, hslots, rfl⟩ := (ih behind (by omega)).1 hbehind
        refine ⟨raw :: raws, constant :: constants, .cons hraw hmeans, ?_, ?_, ?_⟩
        · rw [List.map_cons, List.sum_cons]
          omega
        · rw [hslots, Array.toList_appendList, List.flatMap_cons, List.append_assoc]
        · rw [List.flatMap_cons, List.append_assoc]
      · rintro ⟨raws, constants, hmeans, hcount, hslots, rfl⟩
        cases hmeans with
        | nil => cases hcount
        | @cons raw constant raws constants hraw hmeans =>
          have hlength := length_slots hraw
          have hpos := slotCount_pos raw
          rw [List.map_cons, List.sum_cons] at hcount
          refine ⟨constant, raws.flatMap RawConstant.bytes ++ rest,
            (raws.map RawConstant.slotCount).sum, ?_, by omega, ?_⟩
          · exact constant_eq_ok_iff.2 ⟨raw, hraw, by rw [List.flatMap_cons, List.append_assoc]⟩
          · refine (ih _ (by omega)).2 ⟨raws, constants, hmeans, rfl, ?_, rfl⟩
            rw [hslots, Array.toList_appendList, List.flatMap_cons, List.append_assoc]

/-- The reader of the pool accepts exactly the bytes of constants that fill a pool. -/
theorem pool_eq_ok_iff {pool : ConstantPool} :
    PoolReader.pool input = .ok (pool, rest)
      ↔ ∃ raws, PoolMeans raws pool ∧ (raws.map RawConstant.slotCount).sum + 1 < 0x10000
        ∧ input = bigEndianBytes 2 ((raws.map RawConstant.slotCount).sum + 1)
          ++ (raws.flatMap RawConstant.bytes ++ rest) := by
  rw [PoolReader.pool, bind_eq_ok_iff]
  constructor
  · rintro ⟨count, middle, hcount, hread⟩
    obtain rfl := u2_eq_ok_iff.1 hcount
    by_cases hzero : count = 0
    · rw [if_pos hzero] at hread
      exact (reject_eq_ok_iff.1 hread).elim
    · rw [if_neg hzero] at hread
      obtain ⟨slots, _, hslots, hread⟩ := bind_eq_ok_iff.1 hread
      obtain ⟨_, _, hcheck, hread⟩ := bind_eq_ok_iff.1 hread
      obtain ⟨hvalid, rfl⟩ := checked_eq_ok_iff.1 hcheck
      obtain ⟨rfl, rfl⟩ := pure_eq_ok_iff.1 hread
      obtain ⟨raws, constants, hmeans, hsum, hfilled, rfl⟩ := slotsBehind_eq_ok_iff.1 hslots
      have hlt := count.toNat_lt
      have hpos : count.toNat ≠ 0 := fun h => hzero (UInt16.toNat_inj.1 h)
      have hnumber : (raws.map RawConstant.slotCount).sum + 1 = count.toNat := by omega
      refine ⟨raws, ⟨⟨constants, hmeans, hfilled⟩, ConstantPool.validate_eq_ok_iff.1 hvalid⟩, ?_, ?_⟩
      · omega
      · rw [hnumber, u2Bytes]
  · rintro ⟨raws, ⟨⟨constants, hmeans, hfilled⟩, hvalid⟩, hlt, rfl⟩
    have hnumber : (UInt16.ofNat ((raws.map RawConstant.slotCount).sum + 1)).toNat
        = (raws.map RawConstant.slotCount).sum + 1 := UInt16.toNat_ofNat_of_lt' hlt
    refine ⟨UInt16.ofNat ((raws.map RawConstant.slotCount).sum + 1),
      raws.flatMap RawConstant.bytes ++ rest, ?_, ?_⟩
    · rw [u2_eq_ok_iff, u2Bytes, hnumber]
    · have hzero : UInt16.ofNat ((raws.map RawConstant.slotCount).sum + 1) ≠ 0 := by
        intro h
        rw [h] at hnumber
        exact absurd hnumber.symm (Nat.succ_ne_zero _)
      rw [if_neg hzero, hnumber, Nat.add_sub_cancel]
      refine bind_eq_ok_iff.2 ⟨pool.slots, rest, ?_, ?_⟩
      · exact slotsBehind_eq_ok_iff.2 ⟨raws, constants, hmeans, rfl, by simpa using hfilled, rfl⟩
      · refine bind_eq_ok_iff.2 ⟨(), rest, ?_, pure_eq_ok_iff.2 ⟨rfl, rfl⟩⟩
        exact checked_eq_ok_iff.2 ⟨ConstantPool.validate_eq_ok_iff.2 hvalid, rfl⟩

end PoolReader

end ClassAtlas
