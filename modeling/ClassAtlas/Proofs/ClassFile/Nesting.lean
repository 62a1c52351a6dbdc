import ClassAtlas.Proofs.ClassFile.DecodeExactness
import Mathlib.Order.Bounds.Defs

/-!
# Nesting in accepted classes

Three parts of a description are read by recursion: the dimensions of array types,
the element values of annotations and the attributes of method bodies, which may be
method bodies in turn. Types and element values have limits of their own. Bodies
have none; they end because each level takes eighteen bytes of a content whose
length is told in four bytes, and there are class files that use all of them.
-/

namespace ClassAtlas

/-! ## Depths -/

/-- The greatest of some depths, zero if there are none. -/
def deepest (depths : List Nat) : Nat :=
  depths.foldr max 0

/-- The deepest of some depths is within a bound exactly if all of them are. -/
theorem deepest_le_iff {depths : List Nat} {bound : Nat} :
    deepest depths ≤ bound ↔ ∀ depth ∈ depths, depth ≤ bound := by
  induction depths with
  | nil => simp [deepest]
  | cons depth depths ih =>
    rw [List.forall_mem_cons, ← ih]
    exact Nat.max_le

theorem le_deepest {depths : List Nat} {depth : Nat} (h : depth ∈ depths) :
    depth ≤ deepest depths :=
  deepest_le_iff.1 (Nat.le_refl _) depth h

/-- An element is smaller than the annotation it belongs to. -/
theorem sizeOf_lt_of_mem_elements {value : AnnotationValue} {element : String × ElementValue}
    (h : element ∈ value.elements) : sizeOf element.2 < sizeOf value := by
  have hlist := List.sizeOf_lt_of_mem h
  have hpair : sizeOf element = 1 + sizeOf element.1 + sizeOf element.2 := by
    cases element
    rfl
  have hvalue : sizeOf value = 1 + sizeOf value.type + sizeOf value.elements := by
    cases value
    rfl
  omega

/-- An attribute of a method body is smaller than the body. -/
theorem sizeOf_lt_of_mem_attributes {body : CodeBody Attribute} {inner : Attribute}
    (h : inner ∈ body.attributes) : sizeOf inner < sizeOf body := by
  have hlist := List.sizeOf_lt_of_mem h
  have hbody : sizeOf body.attributes < sizeOf body := by
    cases body
    simp only [CodeBody.mk.sizeOf_spec]
    omega
  omega

namespace ElementValue

/-- The levels of element values in an element value, itself included. -/
def depth : ElementValue → Nat
  | constant _ | enumeration _ _ | classLiteral _ => 1
  | nested value => deepest (value.elements.map fun element => element.2.depth) + 1
  | array values => deepest (values.map depth) + 1
termination_by value => sizeOf value
decreasing_by
  · have hlt := sizeOf_lt_of_mem_elements ‹element ∈ value.elements›
    simp only [nested.sizeOf_spec]
    omega
  · have hlt := List.sizeOf_lt_of_mem ‹_ ∈ values›
    simp only [array.sizeOf_spec]
    omega

/-- The types that occur in an element value. -/
def types : ElementValue → List FieldType
  | constant _ | enumeration _ _ => []
  | classLiteral type => type.toList
  | nested value => value.type :: value.elements.flatMap fun element => element.2.types
  | array values => values.flatMap types
termination_by value => sizeOf value
decreasing_by
  · have hlt := sizeOf_lt_of_mem_elements ‹element ∈ value.elements›
    simp only [nested.sizeOf_spec]
    omega
  · have hlt := List.sizeOf_lt_of_mem ‹_ ∈ values›
    simp only [array.sizeOf_spec]
    omega

end ElementValue

namespace AnnotationOf

/-- The element values of an annotation. -/
def values (applied : AnnotationValue) : List ElementValue :=
  applied.elements.map (·.2)

/-- The types that occur in an annotation. -/
def types (applied : AnnotationValue) : List FieldType :=
  applied.type :: applied.values.flatMap ElementValue.types

end AnnotationOf

namespace Attribute

/-- The levels of attributes in an attribute, itself included. -/
def depth : Attribute → Nat
  | code body => deepest (body.attributes.map depth) + 1
  | _ => 1
termination_by value => sizeOf value
decreasing_by
  have hlt := sizeOf_lt_of_mem_attributes ‹_ ∈ body.attributes›
  simp only [code.sizeOf_spec]
  omega

/-- An attribute and all attributes of the method bodies in it. -/
def within : Attribute → List Attribute
  | code body => code body :: body.attributes.flatMap within
  | other => [other]
termination_by value => sizeOf value
decreasing_by
  have hlt := sizeOf_lt_of_mem_attributes ‹_ ∈ body.attributes›
  simp only [code.sizeOf_spec]
  omega

/-- The element values that an attribute holds itself. -/
def values : Attribute → List ElementValue
  | runtimeVisibleAnnotations annotations => annotations.flatMap AnnotationOf.values
  | _ => []

/-- The types that an attribute holds itself. -/
def types : Attribute → List FieldType
  | localVariableTable locals => locals.map (·.type)
  | runtimeVisibleAnnotations annotations => annotations.flatMap AnnotationOf.types
  | _ => []

end Attribute

/-- The types that occur in a method type. -/
def MethodType.types (type : MethodType) : List FieldType :=
  type.parameters ++ type.result.toList

namespace ClassDescription

/-- All attributes of a class, its members and their bodies, at any depth. -/
def allAttributes (description : ClassDescription) : List Attribute :=
  (description.attributes ++ description.fields.flatMap (·.attributes)
    ++ description.methods.flatMap (·.attributes)).flatMap Attribute.within

/-- The outermost element values of all annotations. -/
def allValues (description : ClassDescription) : List ElementValue :=
  description.allAttributes.flatMap Attribute.values

/-- All types of fields, parameters, results, local variables and annotations. -/
def allTypes (description : ClassDescription) : List FieldType :=
  description.fields.map (·.type) ++ description.methods.flatMap (·.type.types)
    ++ description.allAttributes.flatMap Attribute.types

/-- The depth of the deepest of all types, element values and attributes. -/
def nesting (description : ClassDescription) : Nat :=
  deepest (description.allTypes.map FieldType.dimensions
    ++ description.allValues.map ElementValue.depth
    ++ description.allAttributes.map Attribute.depth)

end ClassDescription

/-! ## Types and element values -/

/-- What stands on the right of related lists is related to something on the left. -/
theorem exists_mem_of_forall₂ {α β : Type} {relates : α → β → Prop} {lefts : List α}
    {rights : List β} {right : β} (h : List.Forall₂ relates lefts rights) (hmem : right ∈ rights) :
    ∃ left ∈ lefts, relates left right := by
  induction h with
  | nil => cases hmem
  | @cons first second lefts rights hfirst _ ih =>
    rcases List.mem_cons.1 hmem with rfl | hlater
    · exact ⟨first, List.mem_cons_self, hfirst⟩
    · obtain ⟨left, hleft, hrelates⟩ := ih hlater
      exact ⟨left, List.mem_cons_of_mem _ hleft, hrelates⟩

variable {pool : ConstantPool}

/-- A described type has 255 dimensions at most. -/
theorem ConstantPool.DescribesField.dimensions_le {index : UInt16} {type : FieldType}
    (h : pool.DescribesField index type) : type.dimensions ≤ 255 := by
  obtain ⟨_, _, hexpressible, _⟩ := h
  exact hexpressible.dimensions_le

/-- What an element value means is nested no deeper than there is room, and its types have 255
dimensions at most. -/
def ElementValue.FitsIn (value : ElementValue) (room : Nat) : Prop :=
  value.depth ≤ room ∧ ∀ type ∈ value.types, type.dimensions ≤ 255

/-- An annotation fits where each of its elements does. -/
theorem AnnotationMeansBy.fitsIn {room : Nat} {element : RawElement → ElementValue → Prop}
    {typeIndex : UInt16} {raws : List (UInt16 × RawElement)} {applied : AnnotationValue}
    (helement : ∀ raw value, element raw value → value.FitsIn room)
    (h : AnnotationMeansBy pool element typeIndex raws applied) :
    (∀ value ∈ applied.values, value.depth ≤ room)
      ∧ ∀ type ∈ applied.types, type.dimensions ≤ 255 := by
  obtain ⟨htype, _, helements⟩ := h
  have hfits : ∀ value ∈ applied.values, value.FitsIn room := by
    intro value hvalue
    obtain ⟨named, hnamed, rfl⟩ := List.mem_map.1 hvalue
    obtain ⟨raw, _, _, hmeans⟩ := exists_mem_of_forall₂ helements hnamed
    exact helement raw.2 named.2 hmeans
  refine ⟨fun value hvalue => (hfits value hvalue).1, fun type hmem => ?_⟩
  rcases List.mem_cons.1 hmem with rfl | hinner
  · exact htype.dimensions_le
  · obtain ⟨value, hvalue, hmem⟩ := List.mem_flatMap.1 hinner
    exact (hfits value hvalue).2 type hmem

/-- An annotation as a value lies one level above its own values. -/
theorem ElementValue.depth_nested (applied : AnnotationValue) :
    (nested applied).depth = deepest (applied.values.map depth) + 1 := by
  rw [depth, AnnotationOf.values, List.map_map]
  rfl

theorem ElementValue.types_nested (applied : AnnotationValue) :
    (nested applied).types = applied.types := by
  rw [types, AnnotationOf.types, AnnotationOf.values, List.flatMap_map]

/-- An element value fits into the room it is read with. The induction is on the room. -/
theorem ElementMeans.fitsIn {room : Nat} {raw : RawElement} {value : ElementValue}
    (h : ElementMeans pool room raw value) : value.FitsIn room := by
  induction room generalizing raw value with
  | zero => cases raw <;> cases value <;> exact h.elim
  | succ room ih =>
    unfold ElementValue.FitsIn
    cases value with
    | constant _ | enumeration _ _ => simp [ElementValue.depth, ElementValue.types]
    | classLiteral type =>
      cases raw with
      | classLiteral index =>
        obtain ⟨_, _, hexpressible, _⟩ : pool.DescribesResult index type := h
        rw [ElementValue.depth, ElementValue.types]
        refine ⟨Nat.le_add_left 1 room, fun found hfound => ?_⟩
        exact (hexpressible found (Option.mem_toList.1 hfound)).dimensions_le
      | _ => exact h.elim
    | nested applied =>
      cases raw with
      | nested typeIndex raws =>
        have happlied : AnnotationMeansBy pool (ElementMeans pool room) typeIndex raws
            applied := h
        obtain ⟨hdepths, htypes⟩ := happlied.fitsIn fun _ _ => ih
        rw [ElementValue.depth_nested, ElementValue.types_nested, Nat.add_le_add_iff_right,
          deepest_le_iff, List.forall_mem_map]
        exact ⟨hdepths, htypes⟩
      | _ => exact h.elim
    | array values =>
      cases raw with
      | array raws =>
        have hvalues : List.Forall₂ (ElementMeans pool room) raws values := h.2
        have hfits : ∀ value ∈ values, value.FitsIn room := by
          intro value hvalue
          obtain ⟨inner, _, hmeans⟩ := exists_mem_of_forall₂ hvalues hvalue
          exact ih hmeans
        rw [ElementValue.depth, ElementValue.types, Nat.add_le_add_iff_right, deepest_le_iff,
          List.forall_mem_map]
        refine ⟨fun value hvalue => (hfits value hvalue).1, fun type hmem => ?_⟩
        obtain ⟨value, hvalue, hmem⟩ := List.mem_flatMap.1 hmem
        exact (hfits value hvalue).2 type hmem
      | _ => exact h.elim

/-! ## Attributes -/

/-- The types that an attribute holds itself have 255 dimensions at most, and its element
values 64 levels. -/
theorem AttributeMeans.own_nesting {raw : RawAttribute} {value : Attribute}
    (h : AttributeMeans pool raw value) :
    (∀ element ∈ value.values, element.depth ≤ 64)
      ∧ ∀ type ∈ value.types, type.dimensions ≤ 255 := by
  cases h with
  | code => exact ⟨nofun, nofun⟩
  | plain _ hcontent _ =>
    cases hcontent with
    | @localVariableTable raws locals _ hlocals =>
      refine ⟨nofun, fun type hmem => ?_⟩
      obtain ⟨declared, hdeclared, rfl⟩ := List.mem_map.1 hmem
      obtain ⟨raw, _, name, type, _, htype, rfl⟩ := exists_mem_of_forall₂ hlocals hdeclared
      exact htype.dimensions_le
    | @runtimeVisibleAnnotations raws annotations _ hannotations =>
      have hfits : ∀ applied ∈ annotations,
          (∀ value ∈ applied.values, value.depth ≤ 64)
            ∧ ∀ type ∈ applied.types, type.dimensions ≤ 255 := by
        intro applied happlied
        obtain ⟨raw, _, hmeans⟩ := exists_mem_of_forall₂ hannotations happlied
        exact AnnotationMeansBy.fitsIn (fun _ _ => ElementMeans.fitsIn) hmeans
      constructor
      · intro value hmem
        obtain ⟨applied, happlied, hvalue⟩ := List.mem_flatMap.1 hmem
        exact (hfits applied happlied).1 value hvalue
      · intro type hmem
        obtain ⟨applied, happlied, htype⟩ := List.mem_flatMap.1 hmem
        exact (hfits applied happlied).2 type htype
    | _ => exact ⟨nofun, nofun⟩

/-- An attribute of a method body has a meaning of its own, and its content is at least eighteen
bytes shorter than that of the body. -/
theorem AttributeMeans.exists_of_mem {raw : RawAttribute} {body : CodeBody Attribute}
    {inner : Attribute} (h : AttributeMeans pool raw (.code body))
    (hmem : inner ∈ body.attributes) :
    ∃ rawInner, AttributeMeans pool rawInner inner
      ∧ rawInner.contentBytes.length + 18 ≤ raw.contentBytes.length := by
  cases h with
  | @code _ _ _ _ _ _ raws _ _ _ _ _ hvalues _ =>
    obtain ⟨rawInner, hraw, hmeans⟩ := exists_mem_of_forall₂ hvalues hmem
    have hframed : rawInner.bytes.length = rawInner.contentBytes.length + 6 := by
      simp only [RawAttribute.bytes, RawAttribute.framed, List.length_append, length_u2Bytes,
        length_bigEndianBytes]
      omega
    have hpart : rawInner.bytes.length ≤ (raws.flatMap RawAttribute.bytes).length :=
      (List.sublist_flatten_of_mem (List.mem_map_of_mem hraw)).length_le
    refine ⟨rawInner, hmeans, ?_⟩
    rw [AttributeReader.contentBytes_code]
    simp only [countedBytes, List.length_append, length_u2Bytes, length_bigEndianBytes]
    omega
  | plain _ hcontent _ => cases hcontent

/-- Each level of attributes below the first takes eighteen bytes. The induction is on the
length of the content. -/
theorem AttributeMeans.depth_le {raw : RawAttribute} {value : Attribute}
    (h : AttributeMeans pool raw value) :
    18 * value.depth ≤ raw.contentBytes.length + 18 := by
  induction hlength : raw.contentBytes.length using Nat.strong_induction_on
    generalizing raw value with
  | _ length ih =>
    cases value with
    | code body =>
      have hinner : deepest (body.attributes.map Attribute.depth) ≤ length / 18 := by
        rw [deepest_le_iff, List.forall_mem_map]
        intro inner hmem
        obtain ⟨rawInner, hmeans, hshorter⟩ := h.exists_of_mem hmem
        have hdepth := ih _ (by omega) hmeans rfl
        omega
      rw [Attribute.depth]
      omega
    | _ =>
      rw [Attribute.depth]
      · omega
      · nofun

/-- Every attribute inside an attribute has a meaning of its own. The induction is on the length
of the content. -/
theorem AttributeMeans.exists_of_mem_within {raw : RawAttribute} {value inner : Attribute}
    (h : AttributeMeans pool raw value) (hmem : inner ∈ value.within) :
    ∃ rawInner, AttributeMeans pool rawInner inner := by
  induction hlength : raw.contentBytes.length using Nat.strong_induction_on
    generalizing raw value with
  | _ length ih =>
    cases value with
    | code body =>
      rw [Attribute.within] at hmem
      rcases List.mem_cons.1 hmem with rfl | hdeeper
      · exact ⟨raw, h⟩
      · obtain ⟨between, hbetween, hmem⟩ := List.mem_flatMap.1 hdeeper
        obtain ⟨rawBetween, hmeans, hshorter⟩ := h.exists_of_mem hbetween
        exact ih _ (by omega) hmeans hmem rfl
    | _ =>
      rw [Attribute.within] at hmem
      · rw [List.mem_singleton.1 hmem]
        exact ⟨raw, h⟩
      · nofun

/-- The length of a content is told in four bytes, which bounds the levels of attributes. -/
theorem AttributeMeans.depth_le_of_length {raw : RawAttribute} {value : Attribute}
    (h : AttributeMeans pool raw value) : value.depth ≤ 238609295 := by
  have hlength : raw.contentBytes.length < 0x100000000 := by
    cases h with
    | code _ _ _ _ _ hlength => exact hlength
    | plain _ _ hlength =>
      rw [RawAttribute.contentBytes]
      exact hlength
  have hdepth := h.depth_le
  omega

/-! ## Classes -/

namespace RawClass.Means

variable {raw : RawClass} {description : ClassDescription}

/-- All attributes of an accepted class have a meaning. -/
theorem exists_attributeMeans (h : raw.Means description) {value : Attribute}
    (hmem : value ∈ description.allAttributes) :
    ∃ rawValue, AttributeMeans description.pool rawValue value := by
  obtain ⟨outer, houter, hinner⟩ := List.mem_flatMap.1 hmem
  have hlisted : ∀ {raws values}, AttributesMean description.pool raws values → outer ∈ values →
      ∃ rawOuter, AttributeMeans description.pool rawOuter outer := by
    intro raws values hmean hvalues
    obtain ⟨rawOuter, _, hmeans⟩ := exists_mem_of_forall₂ hmean.2 hvalues
    exact ⟨rawOuter, hmeans⟩
  have hmeans : ∃ rawOuter, AttributeMeans description.pool rawOuter outer := by
    rcases List.mem_append.1 houter with hfirst | hmethods
    · rcases List.mem_append.1 hfirst with hclass | hfields
      · exact hlisted h.attributes_mean hclass
      · obtain ⟨field, hfield, hvalues⟩ := List.mem_flatMap.1 hfields
        obtain ⟨_, _, hmeans⟩ := exists_mem_of_forall₂ h.fields_mean.2 hfield
        exact hlisted hmeans.attributes_mean hvalues
    · obtain ⟨method, hmethod, hvalues⟩ := List.mem_flatMap.1 hmethods
      obtain ⟨_, _, hmeans⟩ := exists_mem_of_forall₂ h.methods_mean.2 hmethod
      exact hlisted hmeans.attributes_mean hvalues
  obtain ⟨rawOuter, hmeans⟩ := hmeans
  exact hmeans.exists_of_mem_within hinner

/-- Every array type of an accepted file has 255 dimensions at most. -/
theorem dimensions_le (h : raw.Means description) :
    ∀ type ∈ description.allTypes, type.dimensions ≤ 255 := by
  intro type hmem
  rcases List.mem_append.1 hmem with hmembers | hattributes
  · rcases List.mem_append.1 hmembers with hfields | hmethods
    · obtain ⟨field, hfield, rfl⟩ := List.mem_map.1 hfields
      obtain ⟨_, _, hmeans⟩ := exists_mem_of_forall₂ h.fields_mean.2 hfield
      exact hmeans.type_described.dimensions_le
    · obtain ⟨method, hmethod, htype⟩ := List.mem_flatMap.1 hmethods
      obtain ⟨_, _, hmeans⟩ := exists_mem_of_forall₂ h.methods_mean.2 hmethod
      obtain ⟨⟨_, _, hexpressible, _⟩, _⟩ := hmeans.type_described
      rcases List.mem_append.1 htype with hparameter | hresult
      · exact (hexpressible.parameters_expressible type hparameter).dimensions_le
      · exact (hexpressible.result_expressible type (Option.mem_toList.1 hresult)).dimensions_le
  · obtain ⟨value, hvalue, htype⟩ := List.mem_flatMap.1 hattributes
    obtain ⟨_, hmeans⟩ := h.exists_attributeMeans hvalue
    exact hmeans.own_nesting.2 type htype

/-- Every element value of an accepted file has 64 levels at most. -/
theorem valueDepth_le (h : raw.Means description) :
    ∀ element ∈ description.allValues, element.depth ≤ 64 := by
  intro element hmem
  obtain ⟨value, hvalue, helement⟩ := List.mem_flatMap.1 hmem
  obtain ⟨_, hmeans⟩ := h.exists_attributeMeans hvalue
  exact hmeans.own_nesting.1 element helement

/-- Nothing in an accepted file is nested deeper than lengths of four bytes allow. -/
theorem nesting_le (h : raw.Means description) : description.nesting ≤ 238609295 := by
  have htypes := h.dimensions_le
  have hvalues := h.valueDepth_le
  have hattributes : ∀ value ∈ description.allAttributes, value.depth ≤ 238609295 := by
    intro value hvalue
    obtain ⟨_, hmeans⟩ := h.exists_attributeMeans hvalue
    exact hmeans.depth_le_of_length
  rw [ClassDescription.nesting, deepest_le_iff, List.forall_mem_append, List.forall_mem_append,
    List.forall_mem_map, List.forall_mem_map, List.forall_mem_map]
  refine ⟨⟨fun type hmem => ?_, fun element hmem => ?_⟩, hattributes⟩
  · have hdimensions := htypes type hmem
    omega
  · have hdepth := hvalues element hmem
    omega

end RawClass.Means

/-! ## The deepest class -/

/-- Method bodies inside each other, a mark innermost, by the indices of their names. -/
def nestedRaw : Nat → RawAttribute
  | 0 => .plain 4 .deprecated
  | levels + 1 => .code 3 0 0 [] [] [nestedRaw levels]

/-- Method bodies inside each other, a mark innermost. -/
def nestedBodies : Nat → Attribute
  | 0 => .deprecated
  | levels + 1 => .code ⟨0, 0, [], [], [nestedBodies levels]⟩

/-- The name of a class, the class, and the names of the two attributes. -/
def nestedConstants : List RawConstant :=
  [.text [0x41], .entry (.classEntry 1) rfl, .text [0x43, 0x6F, 0x64, 0x65],
    .text [0x44, 0x65, 0x70, 0x72, 0x65, 0x63, 0x61, 0x74, 0x65, 0x64]]

/-- The pool that these constants fill. -/
def nestedPool : ConstantPool :=
  ⟨#[.usable (.utf8 "A"), .usable (.classEntry 1), .usable (.utf8 "Code"),
    .usable (.utf8 "Deprecated")]⟩

/-- A class file with nested bodies. -/
def nestedClass (levels : Nat) : RawClass :=
  ⟨0, 52, nestedConstants, 0x21, 2, 0, [], [], [], [nestedRaw levels]⟩

/-- The class with nested bodies. -/
def nestedDescription (levels : Nat) : ClassDescription :=
  ⟨0, 52, nestedPool, 0x21, "A", none, [], [], [], [nestedBodies levels]⟩

theorem depth_nestedBodies (levels : Nat) : (nestedBodies levels).depth = levels + 1 := by
  induction levels with
  | zero => simp [nestedBodies, Attribute.depth]
  | succ levels ih => simp [nestedBodies, Attribute.depth, ih, deepest]

/-- Every level of the family takes eighteen bytes. -/
theorem length_contentBytes_nestedRaw (levels : Nat) :
    (nestedRaw levels).contentBytes.length = 18 * levels := by
  induction levels with
  | zero =>
    rw [nestedRaw, RawAttribute.contentBytes]
    rfl
  | succ levels ih =>
    rw [nestedRaw, AttributeReader.contentBytes_code]
    simp only [countedBytes, RawAttribute.bytes, RawAttribute.framed, List.flatMap_cons,
      List.flatMap_nil, List.length_append, length_u2Bytes, length_bigEndianBytes, List.length_nil,
      ih]
    omega

theorem countable_nil {ρ : Type} : Countable ([] : List ρ) :=
  Nat.zero_lt_succ _

theorem countable_singleton {ρ : Type} (item : ρ) : Countable [item] := by
  unfold Countable
  rw [List.length_singleton]
  decide

/-- The bodies are what their bytes mean as long as the length of the outermost can be told. -/
theorem attributeMeans_nestedRaw {levels : Nat} (h : 18 * levels < 0x100000000) :
    AttributeMeans nestedPool (nestedRaw levels) (nestedBodies levels) := by
  have hmark : nestedPool.Holds 4 (.utf8 "Deprecated") := ⟨by decide, rfl⟩
  have hcode : nestedPool.Holds 3 (.utf8 "Code") := ⟨by decide, rfl⟩
  induction levels with
  | zero => exact .plain hmark .deprecated (by decide)
  | succ levels ih =>
    have hinner := ih (by omega)
    refine .code hcode countable_nil .nil (countable_singleton _) (.cons hinner .nil) ?_
    have hlength := length_contentBytes_nestedRaw (levels + 1)
    rw [nestedRaw] at hlength
    omega

/-- The constants of the family are those of its pool. -/
theorem poolMeans_nestedConstants : PoolMeans nestedConstants nestedPool := by
  have htext : ∀ {bytes text}, bytes.length < 0x10000 → Text.decodeConstant? bytes = some text →
      ConstantMeans (.text bytes) (.utf8 text) :=
    fun hlength hdecode => ⟨hlength, _, hdecode, rfl⟩
  refine ⟨⟨[.utf8 "A", .classEntry 1, .utf8 "Code", .utf8 "Deprecated"], ?_, rfl⟩, ?_⟩
  · exact .cons (htext (by decide) (by decide +kernel)) (.cons rfl
      (.cons (htext (by decide) (by decide +kernel))
        (.cons (htext (by decide) (by decide +kernel)) .nil)))
  · intro constant hmem
    have hslots : constant = .classEntry 1 ∨ ∃ text, constant = .utf8 text := by
      simp only [nestedPool, List.mem_toArray, List.mem_cons, List.not_mem_nil, or_false,
        PoolSlot.usable.injEq] at hmem
      grind
    rcases hslots with rfl | ⟨text, rfl⟩
    · exact ⟨"A", by decide, rfl⟩
    · trivial

theorem namesClass_nestedPool : nestedPool.NamesClass 2 "A" :=
  ⟨"A", ⟨1, ⟨by decide, rfl⟩, by decide, rfl⟩, by decide +kernel⟩

/-- The files of the family mean their descriptions, as long as the outermost length fits into four
bytes. -/
theorem means_nestedClass {levels : Nat} (h : 18 * levels < 0x100000000) :
    (nestedClass levels).Means (nestedDescription levels) where
  version_supported := by
    show (45 : UInt16) ≤ 52 ∧ (52 : UInt16) ≤ 69
    decide
  version_eq := ⟨rfl, rfl⟩
  slots_countable := by
    show 4 + 1 < 0x10000
    decide
  pool_means := poolMeans_nestedConstants
  flags_eq := rfl
  name_named := namesClass_nestedPool
  superclass_named := rfl
  interfaces_named := ⟨countable_nil, .nil⟩
  fields_mean := ⟨countable_nil, .nil⟩
  methods_mean := ⟨countable_nil, .nil⟩
  attributes_mean := ⟨countable_singleton _, .cons (attributeMeans_nestedRaw h) .nil⟩

/-- An attribute is among the attributes in it. -/
theorem Attribute.mem_within_self (value : Attribute) : value ∈ value.within := by
  cases value with
  | code body =>
    rw [within]
    exact List.mem_cons_self
  | _ =>
    rw [within]
    · exact List.mem_singleton_self _
    · nofun

/-- Bodies are accepted at every depth that the length of a content leaves room for. -/
theorem exists_decode_nested {levels : Nat} (h : 18 * levels < 0x100000000) :
    ∃ bytes description, decode bytes = .ok description ∧ levels + 1 ≤ description.nesting := by
  refine ⟨(nestedClass levels).bytes, nestedDescription levels, ?_, ?_⟩
  · exact decode_eq_ok_iff_exists.2 ⟨nestedClass levels, means_nestedClass h, rfl⟩
  · have hlisted : nestedBodies levels ∈ (nestedDescription levels).allAttributes :=
      List.mem_flatMap.2 ⟨_, List.mem_singleton_self _, Attribute.mem_within_self _⟩
    rw [← depth_nestedBodies levels]
    exact le_deepest (List.mem_append_right _ (List.mem_map_of_mem hlisted))

/-- In every class that is accepted, types have 255 dimensions at most and element values are
nested 64 levels deep at most. Everything is nested 238609295 levels deep at most, and this is
the least such number: no less holds for attributes in method bodies. -/
theorem decode_nesting_isLeast :
    (∀ bytes description, decode bytes = .ok description →
      (∀ type ∈ description.allTypes, type.dimensions ≤ 255)
        ∧ ∀ element ∈ description.allValues, element.depth ≤ 64)
      ∧ IsLeast {bound | ∀ bytes description, decode bytes = .ok description →
        description.nesting ≤ bound} 238609295 := by
  refine ⟨fun bytes description hdecode => ?_, fun bytes description hdecode => ?_, ?_⟩
  · obtain ⟨raw, hmeans, _⟩ := decode_eq_ok_iff_exists.1 hdecode
    exact ⟨hmeans.dimensions_le, hmeans.valueDepth_le⟩
  · obtain ⟨raw, hmeans, _⟩ := decode_eq_ok_iff_exists.1 hdecode
    exact hmeans.nesting_le
  · intro bound hbound
    have hroom : 18 * 238609294 < 0x100000000 := by decide
    obtain ⟨bytes, description, hdecode, hdeep⟩ := exists_decode_nested hroom
    exact hdeep.trans (hbound bytes description hdecode)

end ClassAtlas
