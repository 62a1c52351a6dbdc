import ClassAtlas.Proofs.ClassFile.DecodeExactness

/-!
# The constant pool of an accepted class

The pool of every accepted class file has the size the file tells, with a phantom
behind each wide constant and nowhere else. Its entries are the usable slots under
their own indices, in order. Every look-up succeeds on the constants of its kind,
and every index stored in a constant can be followed to the kind it needs.
-/

namespace ClassAtlas

open Reader

/-! ## Kinds and references of constants -/

namespace Constant

/-- The role that a constant of a kind plays; constants that nothing looks up have none. -/
def role? : Constant → Option ConstantRole
  | utf8 _ => some .text
  | integer _ | float _ | long _ | double _ => some .loadable
  | classEntry _ => some .classEntry
  | stringEntry _ => some .stringEntry
  | member _ _ _ => some .memberReference
  | nameAndType _ _ => some .nameAndType
  | methodHandle _ _ | methodType _ | dynamic _ _ | invokeDynamic _ _ | moduleEntry _
  | packageEntry _ => none

/-- The indices stored in a constant, with the roles they are to lead to. -/
def references : Constant → List (ConstantRole × UInt16)
  | utf8 _ | integer _ | float _ | long _ | double _ => []
  | classEntry index | moduleEntry index | packageEntry index | stringEntry index
  | methodType index => [(.text, index)]
  | member _ classIndex nameAndTypeIndex =>
    [(.classEntry, classIndex), (.nameAndType, nameAndTypeIndex)]
  | nameAndType nameIndex descriptorIndex => [(.text, nameIndex), (.text, descriptorIndex)]
  | methodHandle _ index => [(.memberReference, index)]
  | dynamic _ index | invokeDynamic _ index => [(.nameAndType, index)]

end Constant

namespace ConstantPool

/-- The look-up of a role succeeds at an index. -/
def Succeeds (pool : ConstantPool) (index : UInt16) : ConstantRole → Prop
  | .text => ∃ text, pool.utf8 index = .ok text
  | .classEntry => ∃ internal, pool.className index = .ok internal
  | .stringEntry => ∃ text, pool.string index = .ok text
  | .nameAndType => ∃ pair, pool.nameAndType index = .ok pair
  | .memberReference => ∃ found, pool.memberRef index = .ok found
  | .loadable => ∃ value, AttributeReader.loadableAt pool index = .ok value

variable {pool : ConstantPool} {index : UInt16}

/-- What a look-up succeeds at holds a constant. -/
theorem Succeeds.exists_holds {role : ConstantRole} (h : pool.Succeeds index role) :
    ∃ constant, pool.Holds index constant := by
  cases role with
  | text =>
    obtain ⟨text, htext⟩ := h
    exact ⟨_, utf8_eq_ok_iff.1 htext⟩
  | classEntry =>
    obtain ⟨internal, hinternal⟩ := h
    obtain ⟨nameIndex, hholds, _⟩ := className_eq_ok_iff.1 hinternal
    exact ⟨_, hholds⟩
  | stringEntry =>
    obtain ⟨text, htext⟩ := h
    obtain ⟨textIndex, hholds, _⟩ := string_eq_ok_iff.1 htext
    exact ⟨_, hholds⟩
  | nameAndType =>
    obtain ⟨⟨name, descriptor⟩, hpair⟩ := h
    obtain ⟨_, _, hholds, _⟩ := nameAndType_eq_ok_iff.1 hpair
    exact ⟨_, hholds⟩
  | memberReference =>
    obtain ⟨_, _, _, hholds, _⟩ := exists_memberRef_eq_ok_iff.1 h
    exact ⟨_, hholds⟩
  | loadable =>
    obtain ⟨value, hvalue⟩ := h
    obtain ⟨constant, hget, _⟩ := check_bind_eq_ok_iff.1 hvalue
    exact ⟨constant, get_eq_ok_iff.1 hget⟩

/-- A constant resolves when every index stored in it can be followed. -/
theorem resolves_iff {constant : Constant} :
    pool.Resolves constant
      ↔ ∀ stored ∈ constant.references, pool.Succeeds stored.2 stored.1 := by
  cases constant with
  | utf8 | integer | float | long | double => simp [Resolves, Constant.references]
  | classEntry index | moduleEntry index | packageEntry index | stringEntry index
  | methodType index =>
    simp [Resolves, Constant.references, Succeeds, utf8_eq_ok_iff]
  | member kind classIndex nameAndTypeIndex =>
    simp [Resolves, Constant.references, Succeeds, className_eq_ok_iff, nameAndType_eq_ok_iff]
  | nameAndType nameIndex descriptorIndex =>
    simp [Resolves, Constant.references, Succeeds, utf8_eq_ok_iff]
  | methodHandle kind index =>
    simp [Resolves, Constant.references, Succeeds, exists_memberRef_eq_ok_iff]
  | dynamic bootstrap index | invokeDynamic bootstrap index =>
    simp [Resolves, Constant.references, Succeeds, nameAndType_eq_ok_iff]

/-- A constant that resolves is found by the look-up of its kind. -/
theorem succeeds_of_role {constant : Constant} {role : ConstantRole}
    (hholds : pool.Holds index constant) (hresolves : pool.Resolves constant)
    (hrole : constant.role? = some role) : pool.Succeeds index role := by
  cases constant with
  | utf8 text =>
    cases hrole
    exact ⟨text, utf8_eq_ok_iff.2 hholds⟩
  | integer | float | long | double =>
    cases hrole
    exact ⟨_, check_bind_eq_ok_iff.2 ⟨_, get_eq_ok_iff.2 hholds, rfl⟩⟩
  | classEntry nameIndex =>
    cases hrole
    obtain ⟨text, htext⟩ := hresolves
    exact ⟨text, className_eq_ok_iff.2 ⟨nameIndex, hholds, htext⟩⟩
  | stringEntry textIndex =>
    cases hrole
    obtain ⟨text, htext⟩ := hresolves
    exact ⟨text, string_eq_ok_iff.2 ⟨textIndex, hholds, htext⟩⟩
  | member kind classIndex nameAndTypeIndex =>
    cases hrole
    exact exists_memberRef_eq_ok_iff.2 ⟨kind, classIndex, nameAndTypeIndex, hholds, hresolves⟩
  | nameAndType nameIndex descriptorIndex =>
    cases hrole
    obtain ⟨⟨name, hname⟩, descriptor, hdescriptor⟩ := hresolves
    exact ⟨(name, descriptor), nameAndType_eq_ok_iff.2
      ⟨nameIndex, descriptorIndex, hholds, hname, hdescriptor⟩⟩
  | methodHandle | methodType | dynamic | invokeDynamic | moduleEntry | packageEntry =>
    cases hrole

end ConstantPool

/-! ## Slots -/

/-- Slots filled one constant after the other start with a usable one. -/
theorem head_slots_ne_phantom (constants : List Constant) :
    (constants.flatMap Constant.slots)[0]? ≠ some .phantom := by
  cases constants with
  | nil => simp
  | cons constant constants =>
    rw [List.flatMap_cons, Constant.slots]
    split <;> simp

/-- A slot is a phantom exactly behind a wide constant. The induction is on the constants; a
phantom that ends the slots of the first one is never followed by another. -/
theorem phantom_slots_iff (constants : List Constant) (position : Nat) :
    (constants.flatMap Constant.slots)[position + 1]? = some .phantom
      ↔ ∃ constant, (constants.flatMap Constant.slots)[position]? = some (.usable constant)
        ∧ constant.isWide = true := by
  induction constants generalizing position with
  | nil => simp
  | cons first constants ih =>
    have hhead := head_slots_ne_phantom constants
    rw [List.flatMap_cons, Constant.slots]
    by_cases hwide : first.isWide = true
    · rw [if_pos hwide]
      cases position with
      | zero => simp [hwide]
      | succ position =>
        cases position with
        | zero => simp [hhead]
        | succ position => simpa using ih position
    · rw [if_neg hwide]
      cases position with
      | zero => simp [hhead, hwide]
      | succ position => simpa using ih position

/-! ## Entries -/

namespace ConstantPool

variable {pool : ConstantPool}

/-- Where the size is countable, a position is told by its index. -/
theorem toNat_index {position : Nat} {slot : PoolSlot} (hsize : pool.size + 1 < 0x10000)
    (hslot : pool.slots[position]? = some slot) :
    (UInt16.ofNat (position + 1)).toNat = position + 1 := by
  obtain ⟨hposition, _⟩ := Array.getElem?_eq_some_iff.1 hslot
  have hlt : position < pool.size := hposition
  exact UInt16.toNat_ofNat_of_lt' (show position + 1 < 0x10000 by omega)

/-- An entry is a usable slot under the number of its place, which counts from one. -/
theorem mem_entries_iff_ofNat {index : UInt16} {constant : Constant} :
    (index, constant) ∈ pool.entries
      ↔ ∃ position, pool.slots[position]? = some (.usable constant)
        ∧ UInt16.ofNat (position + 1) = index := by
  unfold entries
  constructor
  · intro hmem
    obtain ⟨⟨slot, place⟩, hslot, hsome⟩ := List.mem_filterMap.1 hmem
    obtain ⟨hplace, hget⟩ := List.mk_mem_zipIdx_iff_le_and_getElem?_sub.1 hslot
    cases slot with
    | phantom => cases hsome
    | usable found =>
      cases hsome
      refine ⟨place - 1, ?_, ?_⟩
      · rw [← Array.getElem?_toList]
        exact hget
      · rw [Nat.sub_add_cancel hplace]
  · rintro ⟨position, hslot, rfl⟩
    refine List.mem_filterMap.2 ⟨(.usable constant, position + 1), ?_, rfl⟩
    refine List.mk_mem_zipIdx_iff_le_and_getElem?_sub.2 ⟨Nat.le_add_left 1 position, ?_⟩
    rw [Nat.add_sub_cancel, Array.getElem?_toList]
    exact hslot

/-- In a pool of countable size the entries are the usable slots, each under the index that
leads to it. -/
theorem mem_entries_iff_slot (hsize : pool.size + 1 < 0x10000) {index : UInt16}
    {constant : Constant} :
    (index, constant) ∈ pool.entries
      ↔ ∃ position, pool.slots[position]? = some (.usable constant)
        ∧ index.toNat = position + 1 := by
  rw [mem_entries_iff_ofNat]
  refine exists_congr fun position => and_congr_right fun hslot => ?_
  have hindex := toNat_index hsize hslot
  rw [← UInt16.toNat_inj, hindex]
  exact eq_comm

/-- The entries stand in increasing order. -/
theorem entries_pairwise_lt (hsize : pool.size + 1 < 0x10000) :
    pool.entries.Pairwise fun first second => first.1.toNat < second.1.toNat := by
  have hplaces : (pool.slots.toList.zipIdx 1).Pairwise fun first second => first.2 < second.2 := by
    rw [← List.pairwise_map, List.zipIdx_map_snd]
    exact List.pairwise_lt_range'
  have hbound : ∀ numbered ∈ pool.slots.toList.zipIdx 1, numbered.2 < 0x10000 := by
    intro numbered hmem
    have hlt := List.snd_lt_add_of_mem_zipIdx hmem
    rw [Array.length_toList] at hlt
    have hlength : pool.slots.size = pool.size := rfl
    omega
  refine List.pairwise_filterMap.2 (hplaces.imp_of_mem ?_)
  rintro ⟨slot, place⟩ ⟨slot', place'⟩ hfirst hsecond hlt entry hentry other hother
  have hplace : (UInt16.ofNat place).toNat = place :=
    UInt16.toNat_ofNat_of_lt' (hbound _ hfirst)
  have hplace' : (UInt16.ofNat place').toNat = place' :=
    UInt16.toNat_ofNat_of_lt' (hbound _ hsecond)
  cases slot with
  | phantom => cases hentry
  | usable constant =>
    cases slot' with
    | phantom => cases hother
    | usable constant' =>
      cases hentry
      cases hother
      rw [hplace, hplace']
      exact hlt

end ConstantPool

/-- What holds of the pool of an accepted class file. -/
structure PoolSound (bytes : Bytes) (pool : ConstantPool) : Prop where
  /-- The two bytes behind the version tell the number of slots plus one. -/
  size_told : ∃ count rest, u2 (bytes.drop 8) = .ok (count, rest) ∧ pool.size + 1 = count.toNat
  /-- The first slot is no phantom. -/
  first_usable : pool.slots[0]? ≠ some .phantom
  /-- Any other slot is a phantom exactly behind a wide constant. -/
  phantom_iff : ∀ position, pool.slots[position + 1]? = some .phantom
    ↔ ∃ constant, pool.slots[position]? = some (.usable constant) ∧ constant.isWide = true
  /-- A wide constant is not in the last slot. -/
  wide_not_last : ∀ position constant, pool.slots[position]? = some (.usable constant) →
    constant.isWide = true → position + 1 < pool.size
  /-- The entries are the usable slots under their indices, which count from one. -/
  entries_iff : ∀ index constant, (index, constant) ∈ pool.entries
    ↔ ∃ position, pool.slots[position]? = some (.usable constant) ∧ index.toNat = position + 1
  /-- The entries stand in increasing order. -/
  entries_increase : pool.entries.Pairwise fun first second => first.1.toNat < second.1.toNat
  /-- No usable slot is left out. -/
  usable_listed : ∀ position constant, pool.slots[position]? = some (.usable constant) →
    ∃ index, (index, constant) ∈ pool.entries ∧ index.toNat = position + 1
  /-- The look-up of its kind succeeds at every constant. -/
  kinds_found : ∀ index constant, pool.get index = .ok constant →
    ∀ role, constant.role? = some role → pool.Succeeds index role
  /-- Every index stored in a constant leads to what it needs. -/
  references_found : ∀ index constant, pool.get index = .ok constant →
    ∀ stored ∈ constant.references, pool.Succeeds stored.2 stored.1 ∧ stored.2 ≠ 0
      ∧ stored.2.toNat ≤ pool.size ∧ pool.slots[stored.2.toNat - 1]? ≠ some .phantom

/-- Constants fill as many slots as their raw forms say. -/
theorem length_flatMap_slots {raws : List RawConstant} {constants : List Constant}
    (h : List.Forall₂ ConstantMeans raws constants) :
    (constants.flatMap Constant.slots).length = (raws.map RawConstant.slotCount).sum := by
  induction h with
  | nil => rfl
  | cons hconstant _ ih =>
    rw [List.flatMap_cons, List.length_append, List.map_cons, List.sum_cons, ih,
      PoolReader.length_slots hconstant]

/-- The number of slots plus one stands behind the magic number and the version. -/
theorem u2_drop_bytes {raw : RawClass} (h : raw.slotCount + 1 < 0x10000) :
    ∃ rest, u2 (raw.bytes.drop 8) = .ok (UInt16.ofNat (raw.slotCount + 1), rest) := by
  have hcount : (UInt16.ofNat (raw.slotCount + 1)).toNat = raw.slotCount + 1 :=
    UInt16.toNat_ofNat_of_lt' h
  have hbytes : raw.bytes
      = (u4Bytes 0xCAFEBABE ++ (u2Bytes raw.minorVersion ++ u2Bytes raw.majorVersion))
        ++ (bigEndianBytes 2 (raw.slotCount + 1)
          ++ (raw.constants.flatMap RawConstant.bytes ++ raw.bodyBytes)) := by
    simp only [RawClass.bytes, RawClass.headBytes, List.append_assoc]
  have hdrop : raw.bytes.drop 8 = bigEndianBytes 2 (raw.slotCount + 1)
      ++ (raw.constants.flatMap RawConstant.bytes ++ raw.bodyBytes) := by
    rw [hbytes]
    apply List.drop_left'
    rw [List.length_append, List.length_append, length_u2Bytes, length_u2Bytes]
    rfl
  rw [hdrop]
  exact ⟨_, u2_eq_ok_iff.2 (by rw [u2Bytes, hcount])⟩

/-- The pool of every accepted class file is sound. -/
theorem decode_pool_sound (bytes : Bytes) (description : ClassDescription)
    (h : decode bytes = .ok description) : PoolSound bytes description.pool := by
  obtain ⟨raw, hmeans, rfl⟩ := decode_eq_ok_iff_exists.1 h
  obtain ⟨⟨constants, hconstants, hslots⟩, hresolves⟩ := hmeans.pool_means
  have hcount : description.pool.size = raw.slotCount := by
    rw [ConstantPool.size, ← Array.length_toList, hslots]
    exact length_flatMap_slots hconstants
  have hsize : description.pool.size + 1 < 0x10000 := by
    rw [hcount]
    exact hmeans.slots_countable
  have hget : ∀ position : Nat, description.pool.slots[position]?
      = (constants.flatMap Constant.slots)[position]? := by
    intro position
    rw [← hslots, Array.getElem?_toList]
  have hphantom : ∀ position, description.pool.slots[position + 1]? = some .phantom
      ↔ ∃ constant, description.pool.slots[position]? = some (.usable constant)
        ∧ constant.isWide = true := by
    intro position
    rw [hget, hget]
    exact phantom_slots_iff constants position
  have hholds : ∀ {index constant}, description.pool.get index = .ok constant →
      description.pool.Holds index constant ∧ description.pool.Resolves constant := by
    intro index constant hfound
    have hholds := ConstantPool.get_eq_ok_iff.1 hfound
    exact ⟨hholds, hresolves constant (Array.mem_of_getElem? hholds.2)⟩
  exact {
    size_told := by
      obtain ⟨rest, hread⟩ := u2_drop_bytes hmeans.slots_countable
      refine ⟨_, rest, hread, ?_⟩
      rw [UInt16.toNat_ofNat_of_lt' hmeans.slots_countable, hcount]
    first_usable := by
      rw [hget]
      exact head_slots_ne_phantom constants
    phantom_iff := hphantom
    wide_not_last := by
      intro position constant hslot hwide
      have hbehind := (hphantom position).2 ⟨constant, hslot, hwide⟩
      exact (Array.getElem?_eq_some_iff.1 hbehind).1
    entries_iff := fun index constant => ConstantPool.mem_entries_iff_slot hsize
    entries_increase := ConstantPool.entries_pairwise_lt hsize
    usable_listed := by
      intro position constant hslot
      have hindex := ConstantPool.toNat_index hsize hslot
      exact ⟨_, (ConstantPool.mem_entries_iff_slot hsize).2 ⟨position, hslot, hindex⟩, hindex⟩
    kinds_found := by
      intro index constant hfound role hrole
      obtain ⟨hholds, hresolves⟩ := hholds hfound
      exact ConstantPool.succeeds_of_role hholds hresolves hrole
    references_found := by
      intro index constant hfound stored hstored
      have hsucceeds := ConstantPool.resolves_iff.1 (hholds hfound).2 stored hstored
      obtain ⟨target, hnonzero, htarget⟩ := hsucceeds.exists_holds
      obtain ⟨hlt, _⟩ := Array.getElem?_eq_some_iff.1 htarget
      have hlength : stored.2.toNat - 1 < description.pool.size := hlt
      refine ⟨hsucceeds, hnonzero, by omega, ?_⟩
      rw [htarget]
      nofun }

/-- A class file whose pool has a wide constant in front of constants that refer to each
other over several steps. -/
def handleFile : Bytes :=
  [0xCA, 0xFE, 0xBA, 0xBE, 0x00, 0x00, 0x00, 0x34,
    -- Eleven slots: a long with its phantom, two texts, a class, a string, a name and type, a
    -- method, its handle, a computed call site and a method type.
    0x00, 0x0C,
    0x05, 0x00, 0x00, 0x00, 0x00, 0x00, 0x00, 0x00, 0x07,
    0x01, 0x00, 0x01, 0x41,
    0x01, 0x00, 0x03, 0x28, 0x29, 0x56,
    0x07, 0x00, 0x03,
    0x08, 0x00, 0x03,
    0x0C, 0x00, 0x03, 0x00, 0x04,
    0x0A, 0x00, 0x05, 0x00, 0x07,
    0x0F, 0x06, 0x00, 0x08,
    0x12, 0x00, 0x00, 0x00, 0x07,
    0x10, 0x00, 0x04,
    0x00, 0x21, 0x00, 0x05, 0x00, 0x00, 0x00, 0x00, 0x00, 0x00, 0x00, 0x00, 0x00, 0x00]

/-- The file is accepted, and its pool of eleven slots is sound. -/
theorem pool_sound_handleFile :
    ∃ description, decode handleFile = .ok description ∧ description.pool.size = 11
      ∧ PoolSound handleFile description.pool := by
  have hsize : (decode handleFile).toOption.map (·.pool.size) = some 11 := by decide +kernel
  cases hread : decode handleFile with
  | error error =>
    rw [hread] at hsize
    cases hsize
  | ok description =>
    rw [hread] at hsize
    exact ⟨description, rfl, Option.some.inj hsize, decode_pool_sound _ _ hread⟩

end ClassAtlas
