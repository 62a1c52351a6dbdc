import ClassAtlas.Proofs.ClassFile.PoolExactness

/-!
# Exactness of the attributes

The reader of each known attribute accepts exactly the bytes of the contents that
have a meaning under its name. Elements of annotations nest up to a fixed depth;
attributes nest inside method bodies, where they are shorter than the body itself.
-/

namespace ClassAtlas.AttributeReader

open Reader

variable {pool : ConstantPool} {index : UInt16} {input rest : Bytes} {limit : Nat}

/-! ## Following indices -/

/-- A class name is looked up exactly where the pool names the class. -/
theorem qualifiedClassName_eq_ok_iff {name : String} :
    qualifiedClassName pool index = .ok name ↔ pool.NamesClass index name := by
  unfold qualifiedClassName ConstantPool.NamesClass
  simp only [← ConstantPool.className_eq_ok_iff]
  cases pool.className index with
  | error error => simp [Except.map]
  | ok internal => simp [Except.map]

theorem qualifiedClassNames_eq_ok_iff {indices : List UInt16} {names : List String} :
    qualifiedClassNames pool indices = .ok names
      ↔ List.Forall₂ pool.NamesClass indices names := by
  simp only [qualifiedClassNames, check_mapM_eq_ok_iff, qualifiedClassName_eq_ok_iff]

/-- A field type is looked up exactly where the pool holds its descriptor. -/
theorem fieldTypeAt_eq_ok_iff {type : FieldType} :
    fieldTypeAt pool index = .ok type ↔ pool.DescribesField index type := by
  unfold fieldTypeAt ConstantPool.DescribesField
  rw [check_bind_eq_ok_iff]
  refine exists_congr fun text => ?_
  rw [ConstantPool.utf8_eq_ok_iff, ← Descriptor.fieldType?_eq_some_iff]
  refine and_congr_right fun _ => ?_
  cases Descriptor.fieldType? text with
  | none => simp
  | some found => simp

theorem resultTypeAt_eq_ok_iff {result : Option FieldType} :
    resultTypeAt pool index = .ok result ↔ pool.DescribesResult index result := by
  unfold resultTypeAt ConstantPool.DescribesResult
  rw [check_bind_eq_ok_iff]
  refine exists_congr fun text => ?_
  rw [ConstantPool.utf8_eq_ok_iff, ← Descriptor.resultType?_eq_some_iff]
  refine and_congr_right fun _ => ?_
  cases Descriptor.resultType? text with
  | none => simp
  | some found => simp

/-- A value is looked up exactly where the pool holds a constant that can be loaded. -/
theorem loadableAt_eq_ok_iff {value : ConstantValue} :
    loadableAt pool index = .ok value ↔ pool.Loads index value := by
  unfold loadableAt
  rw [check_bind_eq_ok_iff]
  constructor
  · rintro ⟨constant, hget, hmatch⟩
    have hholds := ConstantPool.get_eq_ok_iff.1 hget
    cases constant with
    | integer found => cases hmatch; exact .int hholds
    | float found => cases hmatch; exact .float hholds
    | long found => cases hmatch; exact .long hholds
    | double found => cases hmatch; exact .double hholds
    | stringEntry textIndex =>
      obtain ⟨text, hstring, hvalue⟩ := check_bind_eq_ok_iff.1 hmatch
      cases hvalue
      obtain ⟨found, hfound, htext⟩ := ConstantPool.string_eq_ok_iff.1 hstring
      exact .string hfound htext
    | _ => cases hmatch
  · intro h
    cases h with
    | int hholds | float hholds | long hholds | double hholds =>
      exact ⟨_, ConstantPool.get_eq_ok_iff.2 hholds, rfl⟩
    | string hholds htext =>
      refine ⟨_, ConstantPool.get_eq_ok_iff.2 hholds, check_bind_eq_ok_iff.2 ⟨_, ?_, rfl⟩⟩
      exact ConstantPool.string_eq_ok_iff.2 ⟨_, hholds, htext⟩

/-! ## Rows of tables -/

/-- An index of which zero stands for nothing is followed unless it is zero. -/
theorem optional_eq_ok_iff {α γ : Type} {check : Except DecodeError α} {leads : α → Prop}
    {value : γ} (build : Option α → γ) (hcheck : ∀ found, check = .ok found ↔ leads found) :
    (if index = 0 then (pure (build none) : Reader γ)
      else checked check >>= fun found => pure (build (some found))) input = .ok (value, rest)
      ↔ (∃ found, Optionally index leads found ∧ value = build found) ∧ input = rest := by
  by_cases hzero : index = 0
  · rw [if_pos hzero, pure_eq_ok_iff]
    refine and_congr_left fun _ => ?_
    constructor
    · rintro rfl
      exact ⟨none, hzero, rfl⟩
    · rintro ⟨found, hfound, rfl⟩
      cases found with
      | none => rfl
      | some found => exact absurd hzero hfound.1
  · rw [if_neg hzero]
    simp only [bind_eq_ok_iff, checked_eq_ok_iff, pure_eq_ok_iff, hcheck]
    constructor
    · rintro ⟨found, _, ⟨hfound, rfl⟩, rfl, rfl⟩
      exact ⟨⟨some found, ⟨hzero, hfound⟩, rfl⟩, rfl⟩
    · rintro ⟨⟨found, hfound, rfl⟩, rfl⟩
      cases found with
      | none => exact absurd hfound hzero
      | some found => exact ⟨found, input, ⟨hfound.2, rfl⟩, rfl, rfl⟩

/-- An exception handler is read from its bytes, and from no others. -/
theorem exceptionHandler_reads :
    ReadsUpTo limit (exceptionHandler pool) RawHandler.bytes (HandlerMeans pool) := by
  intro input value rest _
  unfold exceptionHandler
  simp only [bind_eq_ok_iff, u2_eq_ok_iff]
  constructor
  · rintro ⟨startPc, _, rfl, endPc, _, rfl, handlerPc, _, rfl, catchIndex, _, rfl, hread⟩
    obtain ⟨⟨catchType, hcatch, rfl⟩, rfl⟩ :=
      (optional_eq_ok_iff (ExceptionHandler.mk startPc endPc handlerPc)
        fun _ => qualifiedClassName_eq_ok_iff).1 hread
    refine ⟨⟨startPc, endPc, handlerPc, catchIndex⟩, ⟨catchType, hcatch, rfl⟩, ?_⟩
    simp only [RawHandler.bytes, List.append_assoc]
  · rintro ⟨⟨startPc, endPc, handlerPc, catchIndex⟩, ⟨catchType, hcatch, rfl⟩, rfl⟩
    simp only [RawHandler.bytes, List.append_assoc]
    refine ⟨startPc, _, rfl, endPc, _, rfl, handlerPc, _, rfl, catchIndex, _, rfl, ?_⟩
    exact (optional_eq_ok_iff (ExceptionHandler.mk startPc endPc handlerPc)
      fun _ => qualifiedClassName_eq_ok_iff).2 ⟨⟨catchType, hcatch, rfl⟩, rfl⟩

theorem lineNumber_reads : ReadsUpTo limit lineNumber LineNumber.bytes Eq := by
  intro input value rest _
  unfold lineNumber
  simp only [bind_eq_ok_iff, u2_eq_ok_iff, pure_eq_ok_iff]
  constructor
  · rintro ⟨startPc, _, rfl, line, _, rfl, rfl, rfl⟩
    exact ⟨⟨startPc, line⟩, rfl, by rw [LineNumber.bytes, List.append_assoc]⟩
  · rintro ⟨⟨startPc, line⟩, rfl, rfl⟩
    rw [LineNumber.bytes, List.append_assoc]
    exact ⟨startPc, _, rfl, line, _, rfl, rfl, rfl⟩

theorem localVariable_reads :
    ReadsUpTo limit (localVariable pool) RawLocalVariable.bytes (LocalVariableMeans pool) := by
  intro input value rest _
  unfold localVariable
  simp only [bind_eq_ok_iff, u2_eq_ok_iff, checked_eq_ok_iff, pure_eq_ok_iff,
    ConstantPool.utf8_eq_ok_iff, fieldTypeAt_eq_ok_iff]
  constructor
  · rintro ⟨startPc, _, rfl, length, _, rfl, nameIndex, _, rfl, typeIndex, _, rfl, index, _, rfl,
      name, _, ⟨hname, rfl⟩, type, _, ⟨htype, rfl⟩, rfl, rfl⟩
    refine ⟨⟨startPc, length, nameIndex, typeIndex, index⟩, ⟨name, type, hname, htype, rfl⟩, ?_⟩
    simp only [RawLocalVariable.bytes, List.append_assoc]
  · rintro ⟨⟨startPc, length, nameIndex, typeIndex, index⟩, ⟨name, type, hname, htype, rfl⟩, rfl⟩
    simp only [RawLocalVariable.bytes, List.append_assoc]
    exact ⟨startPc, _, rfl, length, _, rfl, nameIndex, _, rfl, typeIndex, _, rfl, index, _, rfl,
      name, _, ⟨hname, rfl⟩, type, _, ⟨htype, rfl⟩, rfl, rfl⟩

theorem recordedParameter_reads :
    ReadsUpTo limit (recordedParameter pool) RawParameter.bytes (ParameterMeans pool) := by
  intro input value rest _
  unfold recordedParameter
  simp only [bind_eq_ok_iff, u2_eq_ok_iff]
  constructor
  · rintro ⟨nameIndex, _, rfl, flags, _, rfl, hread⟩
    obtain ⟨⟨name, hname, rfl⟩, rfl⟩ :=
      (optional_eq_ok_iff (fun name => RecordedParameter.mk name flags)
        fun _ => ConstantPool.utf8_eq_ok_iff).1 hread
    refine ⟨⟨nameIndex, flags⟩, ⟨name, hname, rfl⟩, ?_⟩
    rw [RawParameter.bytes, List.append_assoc]
  · rintro ⟨⟨nameIndex, flags⟩, ⟨name, hname, rfl⟩, rfl⟩
    rw [RawParameter.bytes, List.append_assoc]
    refine ⟨nameIndex, _, rfl, flags, _, rfl, ?_⟩
    exact (optional_eq_ok_iff (fun name => RecordedParameter.mk name flags)
      fun _ => ConstantPool.utf8_eq_ok_iff).2 ⟨⟨name, hname, rfl⟩, rfl⟩

/-! ## Annotations -/

/-- An annotation is read exactly when its elements are. -/
theorem annotationOf_reads {element : Reader ElementValue}
    {means : RawElement → ElementValue → Prop}
    (helement : ReadsUpTo limit element RawElement.bytes means) :
    ReadsUpTo limit (annotationOf pool element) RawAnnotation.bytes
      fun raw value => AnnotationMeansBy pool means raw.typeIndex raw.elements value := by
  have hnamed : ReadsUpTo limit
      (do
        let nameIndex ← u2
        let name ← checked (pool.utf8 nameIndex)
        let value ← element
        return (name, value))
      (fun raw : UInt16 × RawElement => u2Bytes raw.1 ++ raw.2.bytes)
      (fun raw named => pool.Holds raw.1 (.utf8 named.1) ∧ means raw.2 named.2) := by
    intro input named rest hlength
    simp only [bind_eq_ok_iff, u2_eq_ok_iff, checked_eq_ok_iff, pure_eq_ok_iff,
      ConstantPool.utf8_eq_ok_iff]
    constructor
    · rintro ⟨nameIndex, _, rfl, name, middle, ⟨hname, rfl⟩, value, _, hvalue, rfl, rfl⟩
      rw [List.length_append] at hlength
      obtain ⟨raw, hraw, rfl⟩ := (helement _ value _ (by omega)).1 hvalue
      exact ⟨(nameIndex, raw), ⟨hname, hraw⟩, by rw [List.append_assoc]⟩
    · rintro ⟨⟨nameIndex, raw⟩, ⟨hname, hraw⟩, rfl⟩
      rw [List.append_assoc, List.length_append] at hlength
      rw [List.append_assoc]
      refine ⟨nameIndex, _, rfl, named.1, _, ⟨hname, rfl⟩, named.2, rest, ?_, rfl, rfl⟩
      exact (helement _ named.2 rest (by omega)).2 ⟨raw, hraw, rfl⟩
  intro input value rest hlength
  unfold annotationOf
  simp only [bind_eq_ok_iff, u2_eq_ok_iff, checked_eq_ok_iff, pure_eq_ok_iff,
    fieldTypeAt_eq_ok_iff]
  constructor
  · rintro ⟨typeIndex, _, rfl, type, middle, ⟨htype, rfl⟩, elements, _, helements, rfl, rfl⟩
    rw [List.length_append] at hlength
    obtain ⟨raws, ⟨hcountable, hmeans⟩, rfl⟩ :=
      (hnamed.counted _ elements _ (by omega)).1 helements
    refine ⟨⟨typeIndex, raws⟩, ⟨htype, hcountable, hmeans⟩, ?_⟩
    rw [ RawAnnotation.bytes, List.append_assoc]
  · rintro ⟨⟨typeIndex, raws⟩, ⟨htype, hcountable, hmeans⟩, rfl⟩
    rw [ RawAnnotation.bytes, List.append_assoc, List.length_append] at hlength
    rw [ RawAnnotation.bytes, List.append_assoc]
    refine ⟨typeIndex, _, rfl, value.type, _, ⟨htype, rfl⟩, value.elements, rest, ?_, rfl, rfl⟩
    exact (hnamed.counted _ value.elements rest (by omega)).2 ⟨raws, ⟨hcountable, hmeans⟩, rfl⟩

/-- A constant element is the index behind its tag. -/
theorem constantElement_eq_ok_iff {tag : Char} {value : ElementValue}
    (htag : tag ∈ 's' :: numberTags) :
    constantElement pool tag input = .ok (value, rest)
      ↔ ∃ index found, ConstantElementMeans pool tag index found ∧ value = .constant found
        ∧ input = u2Bytes index ++ rest := by
  unfold constantElement ConstantElementMeans
  simp only [bind_eq_ok_iff, u2_eq_ok_iff]
  by_cases htext : tag = 's'
  · subst htext
    have hnumber : 's' ∉ numberTags := by decide
    simp only [if_pos, bind_eq_ok_iff, checked_eq_ok_iff, pure_eq_ok_iff,
      ConstantPool.utf8_eq_ok_iff]
    constructor
    · rintro ⟨index, _, rfl, text, _, ⟨htext, rfl⟩, rfl, rfl⟩
      exact ⟨index, _, .inl ⟨trivial, text, htext, rfl⟩, rfl, rfl⟩
    · rintro ⟨index, found, ⟨_, text, htext, rfl⟩ | ⟨hmem, _⟩, rfl, rfl⟩
      · exact ⟨index, rest, rfl, text, rest, ⟨htext, rfl⟩, rfl, rfl⟩
      · exact absurd hmem hnumber
  · have hnumber : tag ∈ numberTags := (List.mem_cons.1 htag).resolve_left htext
    simp only [if_neg htext, bind_eq_ok_iff, checked_eq_ok_iff, pure_eq_ok_iff,
      loadableAt_eq_ok_iff]
    constructor
    · rintro ⟨index, _, rfl, loaded, _, ⟨hloads, rfl⟩, rfl, rfl⟩
      exact ⟨index, _, .inr ⟨hnumber, loaded, hloads, rfl⟩, rfl, rfl⟩
    · rintro ⟨index, found, ⟨h, _⟩ | ⟨_, loaded, hloads, rfl⟩, rfl, rfl⟩
      · exact absurd h htext
      · exact ⟨index, rest, rfl, loaded, rest, ⟨hloads, rfl⟩, rfl, rfl⟩

/-- The tag read from a byte is written as that byte. -/
theorem eq_tagByte {byte : UInt8} {tag : Char} (h : Char.ofNat byte.toNat = tag) :
    byte = tagByte tag := by
  have hlt := byte.toNat_lt
  have hvalid : byte.toNat.isValidChar := Or.inl (by omega)
  have hnumber : tag.toNat = byte.toNat := by
    rw [← h, Char.ofNat, dif_pos hvalid]
    rfl
  rw [tagByte, hnumber, UInt8.ofNat_toNat]

/-- The tags of constant elements are read by one reader. -/
theorem elementValue_constant {room : Nat} {tag : Char} (htag : tag ∈ 's' :: numberTags)
    (bytes : Bytes) :
    elementValue pool (room + 1) (tagByte tag :: bytes) = constantElement pool tag bytes := by
  simp only [numberTags, List.mem_cons, List.not_mem_nil, or_false] at htag
  rcases htag with rfl | rfl | rfl | rfl | rfl | rfl | rfl | rfl | rfl <;> rfl

/-- An element that is read is the bytes of an element with that meaning. -/
theorem exists_rawElement {room : Nat} {value : ElementValue}
    (hinner : ReadsUpTo limit (elementValue pool room) RawElement.bytes (ElementMeans pool room))
    (hlength : input.length ≤ limit)
    (h : elementValue pool (room + 1) input = .ok (value, rest)) :
    ∃ raw, ElementMeans pool (room + 1) raw value ∧ input = raw.bytes ++ rest := by
  unfold elementValue at h
  obtain ⟨byte, middle, reader, hbyte, hreader, hread⟩ := exists_reader_of_bind h
  obtain rfl := u1_eq_ok_iff.1 hbyte
  rw [List.length_cons] at hlength
  have hconstant : ∀ tag, tag ∈ 's' :: numberTags → Char.ofNat byte.toNat = tag →
      constantElement pool tag middle = .ok (value, rest) →
      ∃ raw, ElementMeans pool (room + 1) raw value ∧ byte :: middle = raw.bytes ++ rest := by
    intro tag htag hchar hconstant
    obtain ⟨index, found, hmeans, rfl, rfl⟩ := (constantElement_eq_ok_iff htag).1 hconstant
    obtain rfl := eq_tagByte hchar
    exact ⟨.constant tag index, hmeans, by rw [RawElement.bytes]; rfl⟩
  split at hreader <;> rename_i hchar <;> subst hreader
  · exact hconstant 'B' (by decide) hchar hread
  · exact hconstant 'C' (by decide) hchar hread
  · exact hconstant 'D' (by decide) hchar hread
  · exact hconstant 'F' (by decide) hchar hread
  · exact hconstant 'I' (by decide) hchar hread
  · exact hconstant 'J' (by decide) hchar hread
  · exact hconstant 'S' (by decide) hchar hread
  · exact hconstant 'Z' (by decide) hchar hread
  · exact hconstant 's' (by decide) hchar hread
  · simp only [bind_eq_ok_iff, u2_eq_ok_iff, checked_eq_ok_iff, pure_eq_ok_iff,
      ConstantPool.utf8_eq_ok_iff] at hread
    obtain ⟨typeIndex, _, rfl, nameIndex, _, rfl, typeName, _, ⟨htype, rfl⟩, constantName, _,
      ⟨hname, rfl⟩, rfl, rfl⟩ := hread
    obtain rfl := eq_tagByte hchar
    refine ⟨.enumeration typeIndex nameIndex, ⟨htype, hname⟩, ?_⟩
    rw [RawElement.bytes, List.cons_append, List.append_assoc]
  · simp only [bind_eq_ok_iff, u2_eq_ok_iff, checked_eq_ok_iff, pure_eq_ok_iff,
      resultTypeAt_eq_ok_iff] at hread
    obtain ⟨index, _, rfl, type, _, ⟨htype, rfl⟩, rfl, rfl⟩ := hread
    obtain rfl := eq_tagByte hchar
    exact ⟨.classLiteral index, htype, by rw [RawElement.bytes, List.cons_append]⟩
  · simp only [bind_eq_ok_iff, pure_eq_ok_iff] at hread
    obtain ⟨found, _, hfound, rfl, rfl⟩ := hread
    obtain ⟨raw, hmeans, rfl⟩ := (annotationOf_reads hinner _ found _ (by omega)).1 hfound
    obtain rfl := eq_tagByte hchar
    exact ⟨.nested raw.typeIndex raw.elements, hmeans, by rw [RawElement.bytes]; rfl⟩
  · simp only [bind_eq_ok_iff, pure_eq_ok_iff] at hread
    obtain ⟨values, _, hvalues, rfl, rfl⟩ := hread
    obtain ⟨raws, hmeans, rfl⟩ := (hinner.counted _ values _ (by omega)).1 hvalues
    obtain rfl := eq_tagByte hchar
    exact ⟨.array raws, hmeans, by rw [RawElement.bytes]; rfl⟩
  · exact (misshapen_eq_ok_iff.1 hread).elim

/-- The bytes of an element with a meaning are read as that meaning. -/
theorem elementValue_bytes {room : Nat} {raw : RawElement} {value : ElementValue}
    (hinner : ReadsUpTo limit (elementValue pool room) RawElement.bytes (ElementMeans pool room))
    (hlength : (raw.bytes ++ rest).length ≤ limit) (h : ElementMeans pool (room + 1) raw value) :
    elementValue pool (room + 1) (raw.bytes ++ rest) = .ok (value, rest) := by
  cases raw with
  | constant tag index =>
    cases value <;> try exact h.elim
    rename_i found
    have htag : tag ∈ 's' :: numberTags := by
      rcases h with ⟨rfl, _⟩ | ⟨hmem, _⟩
      · exact List.mem_cons_self
      · exact List.mem_cons_of_mem _ hmem
    rw [RawElement.bytes, List.cons_append, elementValue_constant htag]
    exact (constantElement_eq_ok_iff htag).2 ⟨index, found, h, rfl, rfl⟩
  | enumeration typeIndex nameIndex =>
    cases value <;> try exact h.elim
    rename_i typeName constantName
    rw [RawElement.bytes, List.cons_append, List.append_assoc, elementValue]
    refine bind_eq_ok_iff.2 ⟨tagByte 'e', _, u1_eq_ok_iff.2 rfl, ?_⟩
    refine bind_eq_ok_iff.2 ⟨typeIndex, _, u2_eq_ok_iff.2 rfl, ?_⟩
    refine bind_eq_ok_iff.2 ⟨nameIndex, _, u2_eq_ok_iff.2 rfl, ?_⟩
    refine bind_eq_ok_iff.2
      ⟨typeName, _, checked_eq_ok_iff.2 ⟨ConstantPool.utf8_eq_ok_iff.2 h.1, rfl⟩, ?_⟩
    exact bind_eq_ok_iff.2
      ⟨constantName, _, checked_eq_ok_iff.2 ⟨ConstantPool.utf8_eq_ok_iff.2 h.2, rfl⟩, rfl⟩
  | classLiteral index =>
    cases value <;> try exact h.elim
    rename_i type
    rw [RawElement.bytes, List.cons_append, elementValue]
    refine bind_eq_ok_iff.2 ⟨tagByte 'c', _, u1_eq_ok_iff.2 rfl, ?_⟩
    refine bind_eq_ok_iff.2 ⟨index, _, u2_eq_ok_iff.2 rfl, ?_⟩
    exact bind_eq_ok_iff.2 ⟨type, _, checked_eq_ok_iff.2 ⟨resultTypeAt_eq_ok_iff.2 h, rfl⟩, rfl⟩
  | nested typeIndex raws =>
    cases value <;> try exact h.elim
    rename_i found
    rw [RawElement.bytes, List.cons_append, List.length_cons] at hlength
    rw [RawElement.bytes, List.cons_append, elementValue]
    refine bind_eq_ok_iff.2 ⟨tagByte '@', _, u1_eq_ok_iff.2 rfl, ?_⟩
    refine bind_eq_ok_iff.2 ⟨found, rest, ?_, rfl⟩
    exact (annotationOf_reads hinner _ found rest (by omega)).2 ⟨⟨typeIndex, raws⟩, h, rfl⟩
  | array raws =>
    cases value <;> try exact h.elim
    rename_i values
    rw [RawElement.bytes, List.cons_append, List.length_cons] at hlength
    rw [RawElement.bytes, List.cons_append, elementValue]
    refine bind_eq_ok_iff.2 ⟨tagByte '[', _, u1_eq_ok_iff.2 rfl, ?_⟩
    refine bind_eq_ok_iff.2 ⟨values, rest, ?_, rfl⟩
    exact (hinner.counted _ values rest (by omega)).2 ⟨raws, h, rfl⟩

/-- Elements are read exactly, whatever depth is left for them. -/
theorem elementValue_reads (room : Nat) :
    ReadsUpTo limit (elementValue pool room) RawElement.bytes (ElementMeans pool room) := by
  induction room with
  | zero =>
    intro input value rest _
    rw [elementValue, misshapen_eq_ok_iff, false_iff]
    rintro ⟨raw, hmeans, _⟩
    cases raw <;> cases value <;> exact hmeans
  | succ room ih =>
    intro input value rest hlength
    constructor
    · exact exists_rawElement ih hlength
    · rintro ⟨raw, hmeans, rfl⟩
      exact elementValue_bytes ih hlength hmeans

/-- An annotation is read from its bytes, and from no others. -/
theorem outermostValue_reads :
    ReadsUpTo limit (outermostValue pool) RawAnnotation.bytes (AnnotationMeans pool) :=
  annotationOf_reads (elementValue_reads maxElementDepth)

/-! ## Contents -/

/-- A content is read to its end. -/
theorem wholeContent_eq_ok_iff {α : Type} {reader : Reader α} {mismatch : DecodeError}
    {content : Bytes} {value : α} :
    wholeContent reader mismatch content = .ok value ↔ reader content = .ok (value, []) := by
  unfold wholeContent
  split <;> rename_i hread <;> rw [hread] <;> simp

/-- The index of a text as a whole content. -/
theorem textContent_eq_ok_iff {text : String} :
    textContent pool input = .ok (text, rest)
      ↔ ∃ index, pool.Holds index (.utf8 text) ∧ input = u2Bytes index ++ rest := by
  unfold textContent
  simp only [bind_eq_ok_iff, u2_eq_ok_iff, checked_eq_ok_iff, ConstantPool.utf8_eq_ok_iff]
  constructor
  · rintro ⟨index, _, rfl, htext, rfl⟩
    exact ⟨index, htext, rfl⟩
  · rintro ⟨index, htext, rfl⟩
    exact ⟨index, rest, rfl, htext, rfl⟩

/-- Indices stand for themselves until they are followed. -/
theorem u2_reads : ReadsUpTo limit u2 u2Bytes Eq := by
  intro input value rest _
  rw [u2_eq_ok_iff]
  simp

/-- Recorded parameters are counted in one byte. -/
theorem countedParameters_eq_ok_iff {parameters : List RecordedParameter} :
    (u1 >>= fun count => repeated count.toNat (recordedParameter pool)) input
        = .ok (parameters, rest)
      ↔ ∃ raws : List RawParameter, raws.length < 0x100
        ∧ List.Forall₂ (ParameterMeans pool) raws parameters
        ∧ input = (RawContent.methodParameters raws).bytes ++ rest := by
  simp only [bind_eq_ok_iff, u1_eq_ok_iff, repeated_eq_ok_iff recordedParameter_reads (Nat.le_refl _)]
  constructor
  · rintro ⟨count, _, rfl, raws, hcount, hmeans, rfl⟩
    have hlt := count.toNat_lt
    have hbyte : bigEndianBytes 1 raws.length = [count] := by
      rw [hcount, bigEndianBytes, bigEndianBytes, UInt8.ofNat_toNat]
      rfl
    refine ⟨raws, by omega, hmeans, ?_⟩
    rw [RawContent.bytes, hbyte]
    rfl
  · rintro ⟨raws, hlt, hmeans, rfl⟩
    have hnumber : (UInt8.ofNat raws.length).toNat = raws.length := UInt8.toNat_ofNat_of_lt' hlt
    exact ⟨UInt8.ofNat raws.length, _, rfl, raws, hnumber.symm, hmeans, rfl⟩

variable {nested : Reader (List Attribute)} {name : String} {content : Bytes} {value : Attribute}

/-- A content that is read under a known name has a meaning under it, a method body apart. -/
theorem exists_rawContent {reader : Reader Attribute}
    (hknown : knownContent? pool nested name = some reader)
    (hread : reader content = .ok (value, [])) :
    (name = "Code" ∧ reader = Attribute.code <$> codeBody pool nested)
      ∨ ∃ raw, ContentMeans pool name raw value ∧ content = raw.bytes := by
  unfold knownContent? at hknown
  split at hknown <;> cases hknown
  · exact .inl ⟨rfl, rfl⟩
  all_goals right
  · simp only [bind_eq_ok_iff, u2_eq_ok_iff, checked_eq_ok_iff, pure_eq_ok_iff,
      loadableAt_eq_ok_iff] at hread
    obtain ⟨index, _, rfl, found, _, ⟨hloads, rfl⟩, rfl, rfl⟩ := hread
    exact ⟨_, .constantValue hloads, List.append_nil _⟩
  · obtain ⟨rfl, rfl⟩ := pure_eq_ok_iff.1 hread
    exact ⟨_, .deprecated, rfl⟩
  · obtain ⟨rfl, rfl⟩ := pure_eq_ok_iff.1 hread
    exact ⟨_, .synthetic, rfl⟩
  · obtain ⟨text, rfl, htext⟩ := map_eq_ok_iff.1 hread
    obtain ⟨index, hholds, rfl⟩ := textContent_eq_ok_iff.1 htext
    exact ⟨_, .signature hholds, List.append_nil _⟩
  · obtain ⟨text, rfl, htext⟩ := map_eq_ok_iff.1 hread
    obtain ⟨index, hholds, rfl⟩ := textContent_eq_ok_iff.1 htext
    exact ⟨_, .sourceFile hholds, List.append_nil _⟩
  · simp only [bind_eq_ok_iff, checked_eq_ok_iff, pure_eq_ok_iff,
      qualifiedClassNames_eq_ok_iff] at hread
    obtain ⟨indices, _, hindices, names, _, ⟨hnames, rfl⟩, rfl, rfl⟩ := hread
    obtain ⟨raws, ⟨hcountable, hsame⟩, rfl⟩ := (u2_reads.counted _ indices _ (Nat.le_refl _)).1 hindices
    obtain rfl := List.forall₂_eq_eq_eq ▸ hsame
    exact ⟨_, .exceptions hcountable hnames, List.append_nil _⟩
  · obtain ⟨lines, rfl, hlines⟩ := map_eq_ok_iff.1 hread
    obtain ⟨raws, ⟨hcountable, hsame⟩, rfl⟩ :=
      (lineNumber_reads.counted _ lines _ (Nat.le_refl _)).1 hlines
    obtain rfl := List.forall₂_eq_eq_eq ▸ hsame
    exact ⟨_, .lineNumberTable hcountable, List.append_nil _⟩
  · obtain ⟨locals, rfl, hlocals⟩ := map_eq_ok_iff.1 hread
    obtain ⟨raws, ⟨hcountable, hmeans⟩, rfl⟩ :=
      (localVariable_reads.counted _ locals _ (Nat.le_refl _)).1 hlocals
    exact ⟨_, .localVariableTable hcountable hmeans, List.append_nil _⟩
  · obtain ⟨count, middle, hcount, hread⟩ := bind_eq_ok_iff.1 hread
    obtain ⟨parameters, _, hparameters, hread⟩ := bind_eq_ok_iff.1 hread
    obtain ⟨rfl, rfl⟩ := pure_eq_ok_iff.1 hread
    obtain ⟨raws, hlt, hmeans, rfl⟩ :=
      countedParameters_eq_ok_iff.1 (bind_eq_ok_iff.2 ⟨count, middle, hcount, hparameters⟩)
    exact ⟨_, .methodParameters hlt hmeans, List.append_nil _⟩
  · obtain ⟨values, rfl, hvalues⟩ := map_eq_ok_iff.1 hread
    obtain ⟨raws, ⟨hcountable, hmeans⟩, rfl⟩ :=
      (outermostValue_reads.counted _ values _ (Nat.le_refl _)).1 hvalues
    exact ⟨_, .runtimeVisibleAnnotations hcountable hmeans, List.append_nil _⟩

/-- A name has no reader exactly when its content has no known form. -/
theorem knownContent?_eq_none_iff :
    knownContent? pool nested name = none ↔ name ∉ knownAttributeNames := by
  unfold knownContent?
  split
  case h_12 => simp_all [knownAttributeNames]
  all_goals exact iff_of_false (Option.some_ne_none _) (not_not_intro (by decide))

/-- A content with a meaning under a known name is read under it. -/
theorem exists_knownContent {raw : RawContent} (hname : name ∈ knownAttributeNames)
    (hmeans : ContentMeans pool name raw value) :
    ∃ reader, knownContent? pool nested name = some reader
      ∧ reader raw.bytes = .ok (value, []) := by
  cases hmeans with
  | constantValue hloads =>
    refine ⟨_, rfl, bind_eq_ok_iff.2 ⟨_, [], u2_eq_ok_iff.2 (List.append_nil _).symm, ?_⟩⟩
    exact bind_eq_ok_iff.2 ⟨_, [], checked_eq_ok_iff.2 ⟨loadableAt_eq_ok_iff.2 hloads, rfl⟩, rfl⟩
  | deprecated => exact ⟨_, rfl, rfl⟩
  | synthetic => exact ⟨_, rfl, rfl⟩
  | signature hholds | sourceFile hholds =>
    refine ⟨_, rfl, map_eq_ok_iff.2 ⟨_, rfl, ?_⟩⟩
    exact textContent_eq_ok_iff.2 ⟨_, hholds, (List.append_nil _).symm⟩
  | @exceptions indices names hcountable hnames =>
    refine ⟨_, rfl, bind_eq_ok_iff.2 ⟨indices, [], ?_, ?_⟩⟩
    · exact (u2_reads.counted _ indices [] (Nat.le_refl _)).2
        ⟨indices, ⟨hcountable, List.forall₂_refl indices⟩, (List.append_nil _).symm⟩
    · exact bind_eq_ok_iff.2
        ⟨names, [], checked_eq_ok_iff.2 ⟨qualifiedClassNames_eq_ok_iff.2 hnames, rfl⟩, rfl⟩
  | @lineNumberTable lines hcountable =>
    refine ⟨_, rfl, map_eq_ok_iff.2 ⟨lines, rfl, ?_⟩⟩
    exact (lineNumber_reads.counted _ lines [] (Nat.le_refl _)).2
      ⟨lines, ⟨hcountable, List.forall₂_refl lines⟩, (List.append_nil _).symm⟩
  | @localVariableTable raws locals hcountable hmeans =>
    refine ⟨_, rfl, map_eq_ok_iff.2 ⟨locals, rfl, ?_⟩⟩
    exact (localVariable_reads.counted _ locals [] (Nat.le_refl _)).2
      ⟨raws, ⟨hcountable, hmeans⟩, (List.append_nil _).symm⟩
  | @methodParameters raws parameters hlt hmeans =>
    obtain ⟨count, middle, hcount, hparameters⟩ := bind_eq_ok_iff.1
      (countedParameters_eq_ok_iff.2 ⟨raws, hlt, hmeans, (List.append_nil _).symm⟩)
    exact ⟨_, rfl, bind_eq_ok_iff.2
      ⟨count, middle, hcount, bind_eq_ok_iff.2 ⟨parameters, [], hparameters, rfl⟩⟩⟩
  | @runtimeVisibleAnnotations raws values hcountable hmeans =>
    refine ⟨_, rfl, map_eq_ok_iff.2 ⟨values, rfl, ?_⟩⟩
    exact (outermostValue_reads.counted _ values [] (Nat.le_refl _)).2
      ⟨raws, ⟨hcountable, hmeans⟩, (List.append_nil _).symm⟩
  | unknown hunknown => exact absurd hname hunknown

/-! ## Attributes in attributes -/

/-- The attributes of a method body end its content. -/
theorem contentBytes_code {nameIndex maxStack maxLocals : UInt16} {instructions : Bytes}
    {handlers : List RawHandler} {raws : List RawAttribute} :
    (RawAttribute.code nameIndex maxStack maxLocals instructions handlers raws).contentBytes
      = u2Bytes maxStack ++ (u2Bytes maxLocals ++ (bigEndianBytes 4 instructions.length
        ++ (instructions ++ (countedBytes RawHandler.bytes handlers
          ++ countedBytes RawAttribute.bytes raws)))) := by
  rw [RawAttribute.contentBytes]
  rfl

/-- An attribute other than a body is its content in a frame. -/
theorem bytes_plain {nameIndex : UInt16} {raw : RawContent} :
    (RawAttribute.plain nameIndex raw).bytes = RawAttribute.framed nameIndex raw.bytes := by
  rw [RawAttribute.bytes, RawAttribute.contentBytes]
  rfl

/-- A method body is read exactly when the attributes in it are. -/
theorem codeBody_eq_ok_iff
    (hnested : ReadsUpTo limit nested (countedBytes RawAttribute.bytes) (AttributesMean pool))
    (hlength : content.length ≤ limit) (hlt : content.length < 0x100000000)
    {body : CodeBody Attribute} (nameIndex : UInt16) :
    codeBody pool nested content = .ok (body, [])
      ↔ ∃ rawHandlers raws, Countable rawHandlers
        ∧ List.Forall₂ (HandlerMeans pool) rawHandlers body.handlers
        ∧ AttributesMean pool raws body.attributes
        ∧ content = (RawAttribute.code nameIndex body.maxStack body.maxLocals body.code rawHandlers
          raws).contentBytes := by
  unfold codeBody
  simp only [bind_eq_ok_iff, u2_eq_ok_iff, u4_eq_ok_iff, take_eq_ok_iff, pure_eq_ok_iff]
  constructor
  · rintro ⟨maxStack, _, rfl, maxLocals, _, rfl, codeLength, _, rfl, instructions, _,
      ⟨hinstructions, rfl⟩, handlers, _, hhandlers, values, _, hvalues, rfl, rfl⟩
    simp only [List.length_append] at hlength
    obtain ⟨rawHandlers, ⟨hcountable, hprotected⟩, rfl⟩ :=
      (exceptionHandler_reads.counted _ handlers _ (Nat.le_refl _)).1 hhandlers
    rw [List.length_append] at hlength
    obtain ⟨raws, hmeans, rfl⟩ := (hnested _ values _ (by omega)).1 hvalues
    refine ⟨rawHandlers, raws, hcountable, hprotected, hmeans, ?_⟩
    rw [contentBytes_code, hinstructions, List.append_nil, u4Bytes]
  · rintro ⟨rawHandlers, raws, hcountable, hhandlers, hmeans, rfl⟩
    rw [contentBytes_code] at hlength hlt ⊢
    simp only [List.length_append] at hlength hlt
    have hnumber : (UInt32.ofNat body.code.length).toNat = body.code.length :=
      UInt32.toNat_ofNat_of_lt' (show body.code.length < 2 ^ 32 by omega)
    refine ⟨body.maxStack, _, rfl, body.maxLocals, _, rfl, UInt32.ofNat body.code.length,
      _, by rw [u4Bytes, hnumber], body.code, _, ⟨hnumber.symm, rfl⟩, body.handlers,
      countedBytes RawAttribute.bytes raws, ?_, body.attributes, [], ?_, rfl, rfl⟩
    · exact (exceptionHandler_reads.counted _ body.handlers _ (Nat.le_refl _)).2
        ⟨rawHandlers, ⟨hcountable, hhandlers⟩, rfl⟩
    · exact (hnested _ body.attributes [] (by omega)).2 ⟨raws, hmeans, (List.append_nil _).symm⟩

/-- What a content is taken for under a name. -/
def ContentReads (pool : ConstantPool) (nested : Reader (List Attribute)) (name : String)
    (content : Bytes) (value : Attribute) : Prop :=
  (knownContent? pool nested name = none ∧ value = .unknown name content)
    ∨ ∃ reader, knownContent? pool nested name = some reader ∧ reader content = .ok (value, [])

/-- The content of an attribute is taken off before it is read on its own. -/
theorem contentReader_eq_ok_iff {mismatch : DecodeError} :
    (match knownContent? pool nested name with
      | none => (pure (.unknown name content) : Reader Attribute)
      | some reader => checked (wholeContent reader mismatch content)) input = .ok (value, rest)
      ↔ ContentReads pool nested name content value ∧ input = rest := by
  unfold ContentReads
  cases knownContent? pool nested name with
  | none => simp [pure_eq_ok_iff]
  | some reader => simp [checked_eq_ok_iff, wholeContent_eq_ok_iff]

/-- One attribute is the frame of a content that can be read under its name. -/
theorem single_eq_ok_iff :
    single pool nested input = .ok (value, rest)
      ↔ ∃ nameIndex name content, pool.Holds nameIndex (.utf8 name)
        ∧ content.length < 0x100000000 ∧ ContentReads pool nested name content value
        ∧ input = RawAttribute.framed nameIndex content ++ rest := by
  unfold single
  simp only [bind_eq_ok_iff, u2_eq_ok_iff, u4_eq_ok_iff, checked_eq_ok_iff, take_eq_ok_iff,
    ConstantPool.utf8_eq_ok_iff]
  constructor
  · rintro ⟨nameIndex, _, rfl, length, _, rfl, name, _, ⟨hname, rfl⟩, content, _,
      ⟨hlength, rfl⟩, hread⟩
    have hlt := length.toNat_lt
    obtain ⟨hcontent, rfl⟩ := contentReader_eq_ok_iff.1 hread
    refine ⟨nameIndex, name, content, hname, by omega, hcontent, ?_⟩
    simp only [RawAttribute.framed, hlength, u4Bytes, List.append_assoc]
  · rintro ⟨nameIndex, name, content, hname, hlt, hread, rfl⟩
    have hnumber : (UInt32.ofNat content.length).toNat = content.length :=
      UInt32.toNat_ofNat_of_lt' hlt
    simp only [RawAttribute.framed, List.append_assoc]
    refine ⟨nameIndex, _, rfl, UInt32.ofNat content.length, _, ?_, name, _, ⟨hname, rfl⟩, content,
      rest, ⟨hnumber.symm, rfl⟩, contentReader_eq_ok_iff.2 ⟨hread, rfl⟩⟩
    rw [u4Bytes, hnumber]

/-- One attribute is read exactly when the attributes of method bodies are, whose bytes are
fewer by the frame of the attribute. -/
theorem single_reads
    (hnested : ReadsUpTo limit nested (countedBytes RawAttribute.bytes) (AttributesMean pool)) :
    ReadsUpTo (limit + 1) (single pool nested) RawAttribute.bytes (AttributeMeans pool) := by
  intro input value rest hlength
  rw [single_eq_ok_iff]
  constructor
  · rintro ⟨nameIndex, name, content, hname, hlt, hread, rfl⟩
    have hshorter : content.length ≤ limit := by
      simp only [RawAttribute.framed, List.length_append, length_u2Bytes] at hlength
      omega
    rcases hread with ⟨hunknown, rfl⟩ | ⟨reader, hknown, hread⟩
    · exact ⟨.plain nameIndex (.unknown content),
        .plain hname (.unknown (knownContent?_eq_none_iff.1 hunknown)) hlt,
        by rw [bytes_plain, RawContent.bytes]⟩
    · rcases exists_rawContent hknown hread with ⟨rfl, rfl⟩ | ⟨raw, hmeans, rfl⟩
      · obtain ⟨body, rfl, hbody⟩ := map_eq_ok_iff.1 hread
        obtain ⟨rawHandlers, raws, hcountable, hhandlers, ⟨hraws, hmeans⟩, rfl⟩ :=
          (codeBody_eq_ok_iff hnested hshorter hlt nameIndex).1 hbody
        exact ⟨_, .code hname hcountable hhandlers hraws hmeans hlt, rfl⟩
      · exact ⟨.plain nameIndex raw, .plain hname hmeans hlt, by rw [bytes_plain]⟩
  · rintro ⟨raw, hmeans, rfl⟩
    cases hmeans with
    | @code nameIndex maxStack maxLocals instructions rawHandlers handlers raws values hname
        hcountable hhandlers hraws hmeans hlt =>
      have hshorter : (RawAttribute.code nameIndex maxStack maxLocals instructions rawHandlers
          raws).contentBytes.length ≤ limit := by
        simp only [RawAttribute.bytes, RawAttribute.framed, List.length_append,
          length_u2Bytes] at hlength
        omega
      refine ⟨nameIndex, "Code", _, hname, hlt, .inr ⟨_, rfl, map_eq_ok_iff.2 ⟨_, rfl, ?_⟩⟩, rfl⟩
      exact (codeBody_eq_ok_iff hnested hshorter hlt nameIndex).2
        ⟨rawHandlers, raws, hcountable, hhandlers, ⟨hraws, hmeans⟩, rfl⟩
    | @plain nameIndex name content value hname hmeans hlt =>
      refine ⟨nameIndex, name, content.bytes, hname, hlt, ?_, ?_⟩
      · by_cases hknown : name ∈ knownAttributeNames
        · exact .inr (exists_knownContent hknown hmeans)
        · refine .inl ⟨knownContent?_eq_none_iff.2 hknown, ?_⟩
          cases hmeans with
          | unknown => rfl
          | _ => exact absurd (by decide) hknown
      · rw [bytes_plain]

/-- Attributes are read exactly as long as the limit is not below the number of bytes. The
induction is on the limit. -/
theorem attributes_reads (limit : Nat) :
    ReadsUpTo limit (attributes pool limit) (countedBytes RawAttribute.bytes)
      (AttributesMean pool) := by
  induction limit with
  | zero =>
    intro input values rest hlength
    rw [attributes, misshapen_eq_ok_iff, false_iff]
    rintro ⟨raws, _, rfl⟩
    rw [countedBytes, List.append_assoc, List.length_append, length_bigEndianBytes] at hlength
    omega
  | succ limit ih => exact (single_reads ih).counted

end ClassAtlas.AttributeReader
