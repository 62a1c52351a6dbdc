import ClassAtlas.Proofs.ClassFile.AttributeExactness

/-!
# Exactness of decoding

A byte string is decoded to a description exactly when it is the bytes of a raw
class file that is well formed and has this description as its meaning.
-/

namespace ClassAtlas

open Reader AttributeReader

variable {pool : ConstantPool} {input rest : Bytes} {limit : Nat}

/-- The magic number comes first, and the major version is supported. -/
theorem readVersion_eq_ok_iff {minor major : UInt16} :
    readVersion input = .ok ((minor, major), rest)
      ↔ (45 ≤ major ∧ major ≤ 69)
        ∧ input = u4Bytes 0xCAFEBABE ++ (u2Bytes minor ++ (u2Bytes major ++ rest)) := by
  unfold readVersion
  rw [bind_eq_ok_iff]
  constructor
  · rintro ⟨found, middle, hfound, hread⟩
    obtain rfl := u4_eq_ok_iff.1 hfound
    by_cases hmagic : found ≠ magic
    · rw [if_pos hmagic] at hread
      exact (reject_eq_ok_iff.1 hread).elim
    · rw [if_neg hmagic] at hread
      obtain rfl := not_not.1 hmagic
      simp only [bind_eq_ok_iff, u2_eq_ok_iff] at hread
      obtain ⟨foundMinor, _, rfl, foundMajor, _, rfl, hversion⟩ := hread
      by_cases hsupported : minMajorVersion ≤ foundMajor ∧ foundMajor ≤ maxMajorVersion
      · rw [if_pos hsupported] at hversion
        obtain ⟨hpair, rfl⟩ := pure_eq_ok_iff.1 hversion
        cases hpair
        exact ⟨hsupported, rfl⟩
      · rw [if_neg hsupported] at hversion
        exact (reject_eq_ok_iff.1 hversion).elim
  · rintro ⟨hsupported, rfl⟩
    refine ⟨magic, _, u4_eq_ok_iff.2 rfl, ?_⟩
    rw [if_neg (not_not_intro rfl)]
    refine bind_eq_ok_iff.2 ⟨minor, _, u2_eq_ok_iff.2 rfl, ?_⟩
    refine bind_eq_ok_iff.2 ⟨major, _, u2_eq_ok_iff.2 rfl, ?_⟩
    rw [if_pos (show minMajorVersion ≤ major ∧ major ≤ maxMajorVersion from hsupported)]
    exact pure_eq_ok_iff.2 ⟨rfl, rfl⟩

/-! ## Members -/

/-- A method type is looked up exactly where the pool holds its descriptor and its parameters fit.
-/
theorem methodTypeAt_eq_ok_iff {flags index : UInt16} {type : MethodType} :
    methodTypeAt pool flags index = .ok type ↔ pool.DescribesMethod flags index type := by
  unfold methodTypeAt ConstantPool.DescribesMethod
  rw [check_bind_eq_ok_iff, ← exists_and_right]
  refine exists_congr fun text => ?_
  rw [ConstantPool.utf8_eq_ok_iff, ← Descriptor.methodType?_eq_some_iff, and_assoc]
  refine and_congr_right fun _ => ?_
  cases Descriptor.methodType? text with
  | none => simp
  | some found =>
    have hmax : maxParameterSlots = 255 := rfl
    simp only [Option.some.injEq]
    generalize (if AccessFlags.has flags AccessFlags.staticBit = true then 0 else 1) = receiver
    by_cases hslots : maxParameterSlots < receiver + parameterSlots found.parameters
    · rw [if_pos hslots]
      simp only [reduceCtorEq, false_iff]
      rintro ⟨rfl, hfits⟩
      omega
    · rw [if_neg hslots, Except.ok.injEq]
      constructor
      · rintro rfl
        exact ⟨rfl, by omega⟩
      · rintro ⟨rfl, _⟩
        rfl

/-- Fields and methods are read in the same way: what sets them apart is how the type is
followed and what is built. -/
theorem member_reads {τ μ : Type} {typeAt : UInt16 → UInt16 → Except DecodeError τ}
    {describes : UInt16 → UInt16 → τ → Prop} (build : UInt16 → String → τ → List Attribute → μ)
    (htypeAt : ∀ flags index type, typeAt flags index = .ok type ↔ describes flags index type) :
    ReadsUpTo limit
      (do
        let flags ← u2
        let nameIndex ← u2
        let typeIndex ← u2
        let values ← attributes pool limit
        let name ← checked (pool.utf8 nameIndex)
        let type ← checked (typeAt flags typeIndex)
        return build flags name type values)
      RawMember.bytes
      (fun raw member => ∃ name type values, member = build raw.flags name type values
        ∧ pool.Holds raw.nameIndex (.utf8 name) ∧ describes raw.flags raw.typeIndex type
        ∧ AttributesMean pool raw.attributes values) := by
  intro input member rest hlength
  simp only [bind_eq_ok_iff, u2_eq_ok_iff, checked_eq_ok_iff, pure_eq_ok_iff,
    ConstantPool.utf8_eq_ok_iff, htypeAt]
  constructor
  · rintro ⟨flags, _, rfl, nameIndex, _, rfl, typeIndex, _, rfl, values, _, hvalues, name, _,
      ⟨hname, rfl⟩, type, _, ⟨htype, rfl⟩, rfl, rfl⟩
    simp only [List.length_append] at hlength
    obtain ⟨raws, hmeans, rfl⟩ := (attributes_reads limit _ values _ (by omega)).1 hvalues
    refine ⟨⟨flags, nameIndex, typeIndex, raws⟩,
      ⟨name, type, values, rfl, hname, htype, hmeans⟩, ?_⟩
    simp only [RawMember.bytes, List.append_assoc]
  · rintro ⟨⟨flags, nameIndex, typeIndex, raws⟩,
      ⟨name, type, values, rfl, hname, htype, hmeans⟩, rfl⟩
    simp only [RawMember.bytes, List.append_assoc, List.length_append] at hlength ⊢
    refine ⟨flags, _, rfl, nameIndex, _, rfl, typeIndex, _, rfl, values, rest, ?_, name, rest,
      ⟨hname, rfl⟩, type, rest, ⟨htype, rfl⟩, rfl, rfl⟩
    refine (attributes_reads limit _ values rest ?_).2 ⟨raws, hmeans, rfl⟩
    rw [List.length_append]
    omega

/-- A field is read from its bytes, and from no others. -/
theorem readField_reads :
    ReadsUpTo limit (readField pool limit) RawMember.bytes (FieldMeans pool) := by
  intro input field rest hlength
  refine (member_reads Field.mk (fun _ index type => fieldTypeAt_eq_ok_iff) input field rest
    hlength).trans (exists_congr fun raw => and_congr_left fun _ => ?_)
  constructor
  · rintro ⟨name, type, values, rfl, hname, htype, hmeans⟩
    exact ⟨rfl, hname, htype, hmeans⟩
  · rintro ⟨hflags, hname, htype, hmeans⟩
    refine ⟨field.name, field.type, field.attributes, ?_, hname, htype, hmeans⟩
    rw [← hflags]

theorem readMethod_reads :
    ReadsUpTo limit (readMethod pool limit) RawMember.bytes (MethodMeans pool) := by
  intro input method rest hlength
  refine (member_reads Method.mk (fun flags index type => methodTypeAt_eq_ok_iff) input method rest
    hlength).trans (exists_congr fun raw => and_congr_left fun _ => ?_)
  constructor
  · rintro ⟨name, type, values, rfl, hname, htype, hmeans⟩
    exact ⟨rfl, hname, htype, hmeans⟩
  · rintro ⟨hflags, hname, htype, hmeans⟩
    refine ⟨method.name, method.type, method.attributes, ?_, hname, htype, hmeans⟩
    rw [← hflags]

/-- Interfaces are read from counted indices, each of which names a class. -/
theorem readInterfaces_eq_ok_iff {names : List String} :
    readInterfaces pool input = .ok (names, rest)
      ↔ ∃ indices, (Countable indices ∧ List.Forall₂ pool.NamesClass indices names)
        ∧ input = countedBytes u2Bytes indices ++ rest := by
  unfold readInterfaces
  simp only [bind_eq_ok_iff, checked_eq_ok_iff, qualifiedClassNames_eq_ok_iff]
  constructor
  · rintro ⟨indices, _, hindices, hnames, rfl⟩
    obtain ⟨raws, ⟨hcountable, hsame⟩, rfl⟩ :=
      (u2_reads.counted _ indices _ (Nat.le_refl _)).1 hindices
    obtain rfl := List.forall₂_eq_eq_eq ▸ hsame
    exact ⟨raws, ⟨hcountable, hnames⟩, rfl⟩
  · rintro ⟨indices, ⟨hcountable, hnames⟩, rfl⟩
    refine ⟨indices, rest, ?_, hnames, rfl⟩
    exact (u2_reads.counted _ indices rest (Nat.le_refl _)).2
      ⟨indices, ⟨hcountable, List.forall₂_refl indices⟩, rfl⟩

/-! ## Whole files -/

/-- The end of a file is read where no bytes are left. -/
theorem endOfFile_eq_ok_iff {nothing : Unit} :
    endOfFile input = .ok (nothing, rest) ↔ input = [] ∧ rest = [] := by
  unfold endOfFile
  cases input with
  | nil => simp [eq_comm]
  | cons first behind => simp

/-- The superclass is followed unless its index is zero. -/
theorem superclass_eq_ok_iff {γ : Type} {index : UInt16} {value : γ}
    (build : Option String → γ) :
    (if index = 0 then (pure none : Reader (Option String)) >>= fun found => pure (build found)
      else (some <$> checked (qualifiedClassName pool index)) >>= fun found => pure (build found))
        input = .ok (value, rest)
      ↔ (∃ found, Optionally index (pool.NamesClass index) found ∧ value = build found)
        ∧ input = rest := by
  rw [← optional_eq_ok_iff build fun _ => qualifiedClassName_eq_ok_iff]
  by_cases hzero : index = 0
  · rw [if_pos hzero, if_pos hzero]
    rfl
  · rw [if_neg hzero, if_neg hzero]
    simp only [bind_eq_ok_iff, map_eq_ok_iff]
    constructor
    · rintro ⟨_, middle, ⟨name, rfl, hname⟩, hvalue⟩
      exact ⟨name, middle, hname, hvalue⟩
    · rintro ⟨name, middle, hname, hvalue⟩
      exact ⟨some name, middle, ⟨name, rfl, hname⟩, hvalue⟩

/-- A whole file is read exactly when it is the bytes of a class file with a meaning. -/
theorem readClass_eq_ok_iff {description : ClassDescription} (hlength : input.length ≤ limit) :
    readClass limit input = .ok (description, rest)
      ↔ rest = [] ∧ ∃ raw : RawClass, raw.Means description ∧ input = raw.bytes := by
  unfold readClass
  simp only [bind_eq_ok_iff, Prod.exists, readVersion_eq_ok_iff, PoolReader.pool_eq_ok_iff,
    u2_eq_ok_iff, readInterfaces_eq_ok_iff, endOfFile_eq_ok_iff, checked_eq_ok_iff,
    qualifiedClassName_eq_ok_iff]
  constructor
  · rintro ⟨minorVersion, majorVersion, _, ⟨hsupported, rfl⟩, pool, _,
      ⟨constants, hpool, hslots, rfl⟩, flags, _, rfl, nameIndex, _, rfl, superIndex, _, rfl,
      interfaces, _, ⟨interfaceIndices, hinterfaces, rfl⟩, fields, _, hfields, methods, _,
      hmethods, values, _, hvalues, _, _, ⟨rfl, rfl⟩, name, _, ⟨hname, rfl⟩, hlast⟩
    obtain ⟨⟨superclass, hsuper, rfl⟩, rfl⟩ := (superclass_eq_ok_iff fun superclass =>
      ClassDescription.mk minorVersion majorVersion pool flags name superclass interfaces fields
        methods values).1 hlast
    simp only [List.length_append] at hlength
    obtain ⟨rawFields, hrawFields, rfl⟩ :=
      (readField_reads.counted _ fields _ (by omega)).1 hfields
    rw [List.length_append] at hlength
    obtain ⟨rawMethods, hrawMethods, rfl⟩ :=
      (readMethod_reads.counted _ methods _ (by omega)).1 hmethods
    rw [List.length_append] at hlength
    obtain ⟨raws, hraws, rfl⟩ := (attributes_reads limit _ values _ (by omega)).1 hvalues
    refine ⟨rfl, ⟨minorVersion, majorVersion, constants, flags, nameIndex, superIndex,
      interfaceIndices, rawFields, rawMethods, raws⟩, ?_, ?_⟩
    · exact {
        version_supported := hsupported
        version_eq := ⟨rfl, rfl⟩
        slots_countable := hslots
        pool_means := hpool
        flags_eq := rfl
        name_named := hname
        superclass_named := hsuper
        interfaces_named := hinterfaces
        fields_mean := hrawFields
        methods_mean := hrawMethods
        attributes_mean := hraws }
    · simp only [RawClass.bytes, RawClass.headBytes, RawClass.bodyBytes, RawClass.slotCount,
        List.append_assoc, List.append_nil]
  · rintro ⟨rfl, raw, hmeans, rfl⟩
    obtain ⟨minorVersion, majorVersion, pool, flags, name, superclass, interfaces, fields, methods,
      values⟩ := description
    obtain ⟨hsupported, ⟨rfl, rfl⟩, hslots, hpool, rfl, hname, hsuper, hinterfaces, hfields,
      hmethods, hvalues⟩ := hmeans
    simp only [RawClass.bytes, RawClass.headBytes, RawClass.bodyBytes, RawClass.slotCount,
      List.append_assoc, List.length_append] at hlength ⊢
    refine ⟨raw.minorVersion, raw.majorVersion, _, ⟨hsupported, rfl⟩, pool, _,
      ⟨raw.constants, hpool, hslots, rfl⟩, raw.flags, _, rfl, raw.nameIndex, _, rfl,
      raw.superIndex, _, rfl, interfaces, _, ⟨raw.interfaceIndices, hinterfaces, rfl⟩,
      fields, countedBytes RawMember.bytes raw.methods
        ++ countedBytes RawAttribute.bytes raw.attributes, ?_,
      methods, countedBytes RawAttribute.bytes raw.attributes, ?_,
      values, [], ?_, (), [], ⟨rfl, rfl⟩, name, [], ⟨hname, rfl⟩, ?_⟩
    · refine (readField_reads.counted _ fields _ ?_).2 ⟨raw.fields, hfields, rfl⟩
      simp only [List.length_append]
      omega
    · refine (readMethod_reads.counted _ methods _ ?_).2 ⟨raw.methods, hmethods, rfl⟩
      rw [List.length_append]
      omega
    · exact (attributes_reads limit _ values [] (by omega)).2
        ⟨raw.attributes, hvalues, (List.append_nil _).symm⟩
    · exact (superclass_eq_ok_iff fun superclass =>
        ClassDescription.mk raw.minorVersion raw.majorVersion pool raw.flags name superclass
          interfaces fields methods values).2 ⟨⟨superclass, hsuper, rfl⟩, rfl⟩

/-- Decoding succeeds when the whole file is read. -/
theorem decode_eq_ok_iff_readClass {bytes : Bytes} {description : ClassDescription} :
    decode bytes = .ok description
      ↔ ∃ rest, readClass bytes.length bytes = .ok (description, rest) := by
  unfold decode
  split <;> rename_i hread <;> rw [hread] <;> simp

/-- Decoding succeeds on the bytes of class files with a meaning, and only there. -/
theorem decode_eq_ok_iff_exists {bytes : Bytes} {description : ClassDescription} :
    decode bytes = .ok description
      ↔ ∃ raw : RawClass, raw.Means description ∧ bytes = raw.bytes := by
  simp only [decode_eq_ok_iff_readClass, readClass_eq_ok_iff (Nat.le_refl bytes.length),
    exists_and_right, exists_eq, true_and]

/-- A class file has one meaning at most. -/
theorem RawClass.Means.unique {raw : RawClass} {first second : ClassDescription}
    (h : raw.Means first) (h' : raw.Means second) : first = second := by
  have hfirst : decode raw.bytes = .ok first := decode_eq_ok_iff_exists.2 ⟨raw, h, rfl⟩
  have hsecond : decode raw.bytes = .ok second := decode_eq_ok_iff_exists.2 ⟨raw, h', rfl⟩
  exact Except.ok.inj (hfirst.symm.trans hsecond)

/-- A byte string is decoded to a description exactly when it is the bytes of a well-formed
raw class file of which the description is the one meaning. -/
theorem decode_eq_ok_iff (bytes : Bytes) (description : ClassDescription) :
    decode bytes = .ok description
      ↔ ∃ raw : RawClass, bytes = raw.bytes ∧ raw.Means description
        ∧ ∀ other, raw.Means other → other = description := by
  rw [decode_eq_ok_iff_exists]
  constructor
  · rintro ⟨raw, hmeans, hbytes⟩
    exact ⟨raw, hbytes, hmeans, fun other hother => hother.unique hmeans⟩
  · rintro ⟨raw, hbytes, hmeans, _⟩
    exact ⟨raw, hmeans, hbytes⟩

end ClassAtlas
