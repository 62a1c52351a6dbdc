import ClassAtlas.Descriptor
import ClassAtlas.Proofs.Text.Splitting
import Mathlib.Data.List.TakeWhile
import Mathlib.Data.Set.Function

/-!
# The grammar of descriptors

A type can be expressed in a descriptor when it has at most 255 dimensions and
the name of its class holds no semicolon. The readers of descriptors accept the
written form of exactly these types, and leave behind what follows it. Field,
result and method descriptors are settled one after the other. Different types have
different written forms, so that what is read is the only reading.
-/

namespace ClassAtlas

/-- Whether a type has a written form that the readers accept. -/
structure FieldType.Expressible (type : FieldType) : Prop where
  /-- The dimensions fit. -/
  dimensions_le : type.dimensions ≤ maxArrayDimensions
  /-- The name of the class ends at the first semicolon behind it. -/
  name_closed : ∀ name, type.innermost = .object name → ';' ∉ name.toList

/-- Whether a result type has a written form; `void` always has. -/
def ResultExpressible (result : Option FieldType) : Prop :=
  ∀ type, result = some type → type.Expressible

/-- Whether a method type has a written form that the reader accepts. -/
structure MethodType.Expressible (type : MethodType) : Prop where
  /-- Every parameter can be written. -/
  parameters_expressible : ∀ parameter ∈ type.parameters, parameter.Expressible
  /-- The result can be written. -/
  result_expressible : ResultExpressible type.result

namespace FieldType

/-- Every type is its innermost type in its dimensions. -/
theorem arrayOf_dimensions_innermost (type : FieldType) :
    arrayOf type.dimensions type.innermost = type := by
  induction type with
  | primitive kind => rfl
  | object name => rfl
  | array element ih => rw [dimensions, innermost, arrayOf, ih]

/-- The innermost type of an array is no array. -/
theorem dimensions_innermost (type : FieldType) : type.innermost.dimensions = 0 := by
  induction type with
  | primitive kind => rfl
  | object name => rfl
  | array element ih => exact ih

theorem innermost_innermost (type : FieldType) : type.innermost.innermost = type.innermost := by
  induction type with
  | primitive kind => rfl
  | object name => rfl
  | array element ih => exact ih

/-- A type in some more dimensions. -/
theorem dimensions_arrayOf (count : Nat) (element : FieldType) :
    (arrayOf count element).dimensions = count + element.dimensions := by
  induction count with
  | zero => rw [arrayOf, Nat.zero_add]
  | succ count ih =>
    rw [arrayOf, dimensions, ih]
    omega

theorem innermost_arrayOf (count : Nat) (element : FieldType) :
    (arrayOf count element).innermost = element.innermost := by
  induction count with
  | zero => rfl
  | succ count ih => rw [arrayOf, innermost, ih]

/-- Each dimension is written as one bracket in front. -/
theorem descriptor_arrayOf (count : Nat) (element : FieldType) :
    (arrayOf count element).descriptor = List.replicate count '[' ++ element.descriptor := by
  induction count with
  | zero => rfl
  | succ count ih => rw [arrayOf, descriptor, ih, List.replicate_succ, List.cons_append]

/-- A type without dimensions is written without a bracket in front. -/
theorem head_descriptor_ne_bracket {type : FieldType} (h : type.dimensions = 0) :
    ∃ first rest, type.descriptor = first :: rest ∧ first ≠ '[' := by
  cases type with
  | primitive kind => exact ⟨kind.letter, [], rfl, by cases kind <;> decide⟩
  | object name => exact ⟨'L', _, rfl, by decide⟩
  | array element => simp [dimensions] at h

/-- Only expressible innermost types make a type expressible. -/
theorem Expressible.innermost {type : FieldType} (h : type.Expressible) :
    type.innermost.Expressible where
  dimensions_le := by rw [dimensions_innermost]; exact Nat.zero_le _
  name_closed := by rw [innermost_innermost]; exact h.name_closed

/-- Every descriptor takes at least one character. -/
theorem descriptor_ne_nil (type : FieldType) : type.descriptor ≠ [] := by
  cases type <;> simp [descriptor]

end FieldType

namespace Primitive

/-- A letter belongs to the primitive type it is written for, and to no other. -/
theorem ofLetter?_eq_some_iff {letter : Char} {kind : Primitive} :
    ofLetter? letter = some kind ↔ letter = kind.letter := by
  constructor
  · intro h
    unfold ofLetter? at h
    split at h <;> cases h <;> rfl
  · rintro rfl
    cases kind <;> rfl

end Primitive

namespace Descriptor

open FieldType

/-- A class name up to its semicolon is read back in front of anything. -/
theorem readElementType_object {name : String} (h : ';' ∉ name.toList) (rest : List Char) :
    readElementType ((FieldType.object name).descriptor ++ rest) = some (.object name, rest) := by
  have hfront : ∀ c ∈ name.toList, (decide (c ≠ ';')) = true := by
    intro c hc
    have hne : c ≠ ';' := fun he => h (he ▸ hc)
    simpa using hne
  have hshape : (FieldType.object name).descriptor ++ rest = 'L' :: (name.toList ++ ';' :: rest) := by
    simp [descriptor]
  rw [hshape, readElementType, List.dropWhile_append_of_pos hfront,
    List.takeWhile_append_of_pos hfront]
  simp

/-- A type without dimensions is read back in front of anything. -/
theorem readElementType_descriptor_append {type : FieldType} (hzero : type.dimensions = 0)
    (h : type.Expressible) (rest : List Char) :
    readElementType (type.descriptor ++ rest) = some (type, rest) := by
  cases type with
  | primitive kind => cases kind <;> rfl
  | object name => exact readElementType_object (h.name_closed name rfl) rest
  | array element => simp [dimensions] at hzero

/-- Whatever is read as a type without dimensions is its written form. -/
theorem eq_of_readElementType {text rest : List Char} {type : FieldType}
    (h : readElementType text = some (type, rest)) :
    type.dimensions = 0 ∧ type.Expressible ∧ text = type.descriptor ++ rest := by
  unfold readElementType at h
  split at h
  · cases h
  · next front =>
    -- the name ends where the semicolon is found, so it holds none
    have hsplit : front.takeWhile (· ≠ ';') ++ front.dropWhile (· ≠ ';') = front :=
      List.takeWhile_append_dropWhile
    split at h
    · cases h
    · next mark behind hdrop =>
      have hmark : mark = ';' := by
        have hhead := List.head?_dropWhile_not (· ≠ ';') front
        rw [hdrop] at hhead
        simpa using hhead
      obtain ⟨rfl, rfl⟩ := Prod.mk.inj (Option.some.inj h)
      refine ⟨rfl, ⟨Nat.zero_le _, ?_⟩, ?_⟩
      · rintro name hname hmem
        cases hname
        rw [String.toList_ofList] at hmem
        simpa using List.mem_takeWhile_imp hmem
      · rw [hdrop, hmark] at hsplit
        rw [descriptor, String.toList_ofList, List.cons_append, List.append_assoc,
          List.singleton_append, hsplit]
  · next letter behind hletter =>
    obtain ⟨kind, hkind, hpair⟩ := Option.map_eq_some_iff.1 h
    obtain ⟨rfl, rfl⟩ := Prod.mk.inj hpair
    rw [Primitive.ofLetter?_eq_some_iff] at hkind
    refine ⟨rfl, ⟨Nat.zero_le _, ?_⟩, ?_⟩
    · intro name hname
      cases hname
    · rw [hkind]
      rfl

/-- An expressible type is read back in front of anything. -/
theorem readFieldType_descriptor_append {type : FieldType} (h : type.Expressible)
    (rest : List Char) :
    readFieldType (type.descriptor ++ rest) = some (type, rest) := by
  obtain ⟨first, others, hhead, hne⟩ := head_descriptor_ne_bracket (dimensions_innermost type)
  have hshape : type.descriptor ++ rest
      = List.replicate type.dimensions '[' ++ (type.innermost.descriptor ++ rest) := by
    rw [← List.append_assoc, ← descriptor_arrayOf, arrayOf_dimensions_innermost]
  have hbrackets : ∀ c ∈ List.replicate type.dimensions '[', (decide (c = '[')) = true := by
    intro c hc
    simpa using (List.mem_replicate.1 hc).2
  have htake : (type.descriptor ++ rest).takeWhile (· = '[')
      = List.replicate type.dimensions '[' := by
    rw [hshape, List.takeWhile_append_of_pos hbrackets, hhead]
    simp [hne]
  have hdrop : (type.descriptor ++ rest).dropWhile (· = '[')
      = type.innermost.descriptor ++ rest := by
    rw [hshape, List.dropWhile_append_of_pos hbrackets, hhead]
    simp [hne]
  have hfits : ¬ maxArrayDimensions < type.dimensions := Nat.not_lt.2 h.dimensions_le
  unfold readFieldType
  simp only [htake, hdrop, List.length_replicate]
  rw [if_neg hfits, readElementType_descriptor_append (dimensions_innermost type) h.innermost,
    Option.map_some, arrayOf_dimensions_innermost]

/-- Whatever is read as a type is its written form. -/
theorem eq_of_readFieldType {text rest : List Char} {type : FieldType}
    (h : readFieldType text = some (type, rest)) :
    type.Expressible ∧ text = type.descriptor ++ rest := by
  unfold readFieldType at h
  simp only at h
  split at h
  · cases h
  · next hfits =>
    obtain ⟨⟨element, behind⟩, helement, hpair⟩ := Option.map_eq_some_iff.1 h
    obtain ⟨rfl, rfl⟩ := Prod.mk.inj hpair
    obtain ⟨hzero, hexpressible, hrest⟩ := eq_of_readElementType helement
    have hbrackets : text.takeWhile (· = '[')
        = List.replicate (text.takeWhile (· = '[')).length '[' := by
      apply List.eq_replicate_of_mem
      intro c hc
      simpa using List.mem_takeWhile_imp hc
    refine ⟨⟨?_, ?_⟩, ?_⟩
    · rw [dimensions_arrayOf, hzero, Nat.add_zero]
      exact Nat.not_lt.1 hfits
    · rw [innermost_arrayOf]
      exact hexpressible.name_closed
    · have hsplit : text.takeWhile (· = '[') ++ text.dropWhile (· = '[') = text :=
        List.takeWhile_append_dropWhile
      rw [hrest] at hsplit
      rw [descriptor_arrayOf, ← hbrackets, List.append_assoc]
      exact hsplit.symm

/-- The reader of types accepts exactly their written forms. -/
theorem readFieldType_eq_some_iff {text rest : List Char} {type : FieldType} :
    readFieldType text = some (type, rest)
      ↔ type.Expressible ∧ text = type.descriptor ++ rest := by
  constructor
  · exact eq_of_readFieldType
  · rintro ⟨h, rfl⟩
    exact readFieldType_descriptor_append h rest

/-- No type starts with a closing parenthesis or with the letter of `void`. -/
theorem readFieldType_eq_none {first : Char} (h : first = ')' ∨ first = 'V') (rest : List Char) :
    readFieldType (first :: rest) = none := by
  rcases h with rfl | rfl <;> rfl

/-- Only whole descriptors of fields are accepted. -/
theorem fieldType?_eq_some_iff {text : String} {type : FieldType} :
    fieldType? text = some type ↔ type.Expressible ∧ text.toList = type.descriptor := by
  have hread : readFieldType text.toList = some (type, [])
      ↔ type.Expressible ∧ text.toList = type.descriptor ++ [] := readFieldType_eq_some_iff
  rw [List.append_nil] at hread
  rw [← hread]
  unfold fieldType?
  split
  · next found hfound => simp [hfound]
  · next hother =>
    constructor
    · intro h
      cases h
    · intro h
      exact absurd h (hother type)

/-- The reader of result types accepts exactly their written forms. -/
theorem readResultType_eq_some_iff {text rest : List Char} {result : Option FieldType} :
    readResultType text = some (result, rest)
      ↔ ResultExpressible result ∧ text = resultDescriptor result ++ rest := by
  constructor
  · intro h
    unfold readResultType at h
    split at h
    · next type behind htype =>
      obtain ⟨rfl, rfl⟩ := Prod.mk.inj (Option.some.inj h)
      obtain ⟨hexpressible, htext⟩ := eq_of_readFieldType htype
      refine ⟨?_, htext⟩
      intro other hother
      cases hother
      exact hexpressible
    · split at h
      · obtain ⟨rfl, rfl⟩ := Prod.mk.inj (Option.some.inj h)
        exact ⟨fun other hother => (by cases hother), rfl⟩
      · cases h
  · rintro ⟨h, rfl⟩
    unfold readResultType
    cases result with
    | none =>
      rw [resultDescriptor, List.singleton_append]
      simp only [readFieldType_eq_none (.inr rfl)]
    | some type => rw [resultDescriptor, readFieldType_descriptor_append (h type rfl)]

/-- Only whole descriptors of results are accepted. -/
theorem resultType?_eq_some_iff {text : String} {result : Option FieldType} :
    resultType? text = some result
      ↔ ResultExpressible result ∧ text.toList = resultDescriptor result := by
  have hread : readResultType text.toList = some (result, [])
      ↔ ResultExpressible result ∧ text.toList = resultDescriptor result ++ [] :=
    readResultType_eq_some_iff
  rw [List.append_nil] at hread
  rw [← hread]
  unfold resultType?
  split
  · next found hfound => simp [hfound]
  · next hother =>
    constructor
    · intro h
      cases h
    · intro h
      exact absurd h (hother result)

/-- Types in a row are read up to a closing parenthesis, when the limit allows. -/
theorem readFieldTypesBehind_descriptors (read types : List FieldType) (limit : Nat)
    (rest : List Char) (h : ∀ type ∈ types, type.Expressible) (hlimit : types.length ≤ limit) :
    readFieldTypesBehind read limit (types.flatMap FieldType.descriptor ++ ')' :: rest)
      = (read.reverse ++ types, ')' :: rest) := by
  induction types generalizing read limit with
  | nil =>
    cases limit with
    | zero => simp [readFieldTypesBehind]
    | succ limit => simp [readFieldTypesBehind, readFieldType_eq_none (.inl rfl)]
  | cons type types ih =>
    obtain ⟨limit, rfl⟩ : ∃ less, limit = less + 1 := Nat.exists_eq_succ_of_ne_zero (by
      simp only [List.length_cons] at hlimit
      omega)
    have hread := readFieldType_descriptor_append (h type List.mem_cons_self)
      (types.flatMap FieldType.descriptor ++ ')' :: rest)
    have hothers := ih (type :: read) limit (fun other hother => h other (List.mem_cons_of_mem _ hother))
      (by simpa using hlimit)
    rw [List.flatMap_cons, List.append_assoc, readFieldTypesBehind, hread]
    simp only
    rw [hothers]
    simp

/-- Types read in a row are written in front of what is left. -/
theorem eq_of_readFieldTypesBehind {read types : List FieldType} {limit : Nat}
    {text rest : List Char} (h : readFieldTypesBehind read limit text = (types, rest)) :
    ∃ found, types = read.reverse ++ found ∧ (∀ type ∈ found, type.Expressible)
      ∧ text = found.flatMap FieldType.descriptor ++ rest := by
  induction limit generalizing read text with
  | zero =>
    obtain ⟨rfl, rfl⟩ := Prod.mk.inj h
    exact ⟨[], by simp⟩
  | succ limit ih =>
    rw [readFieldTypesBehind] at h
    split at h
    · next type behind htype =>
      obtain ⟨hexpressible, htext⟩ := eq_of_readFieldType htype
      obtain ⟨found, rfl, hfound, hbehind⟩ := ih h
      refine ⟨type :: found, by simp, ?_, ?_⟩
      · intro other hother
        rcases List.mem_cons.1 hother with rfl | hother
        · exact hexpressible
        · exact hfound other hother
      · rw [htext, hbehind, List.flatMap_cons, List.append_assoc]
    · obtain ⟨rfl, rfl⟩ := Prod.mk.inj h
      exact ⟨[], by simp⟩

/-- Only whole descriptors of methods are accepted. -/
theorem methodType?_eq_some_iff {text : String} {type : MethodType} :
    methodType? text = some type ↔ type.Expressible ∧ text.toList = type.descriptor := by
  constructor
  · intro h
    unfold methodType? at h
    split at h
    · next inner hinner =>
      split at h
      · next parameters behind hparameters =>
        split at h
        · next result hresult =>
          obtain rfl := Option.some.inj h
          obtain ⟨found, rfl, hfound, htext⟩ := eq_of_readFieldTypesBehind hparameters
          obtain ⟨hexpressible, hbehind⟩ := readResultType_eq_some_iff.1 hresult
          refine ⟨⟨hfound, hexpressible⟩, ?_⟩
          rw [hinner, htext, hbehind, List.append_nil]
          rfl
        · cases h
      · cases h
    · cases h
  · rintro ⟨h, htext⟩
    obtain ⟨parameters, result⟩ := type
    have hparameters : readFieldTypes
        (parameters.flatMap FieldType.descriptor ++ ')' :: resultDescriptor result)
        = (parameters, ')' :: resultDescriptor result) := by
      refine readFieldTypesBehind_descriptors [] parameters _ _ h.parameters_expressible ?_
      have hlength := Text.length_le_length_flatMap descriptor_ne_nil parameters
      rw [List.length_append]
      omega
    have hresult : readResultType (resultDescriptor result) = some (result, []) :=
      readResultType_eq_some_iff.2 ⟨h.result_expressible, by rw [List.append_nil]⟩
    unfold methodType?
    rw [htext, MethodType.descriptor]
    simp only [hparameters, hresult]

/-- The result type at the front of a text is the one that is written there, and what follows it
is left. -/
theorem leadingResultType?_eq_some_iff {text rest : String} {result : Option FieldType} :
    leadingResultType? text = some (result, rest)
      ↔ ResultExpressible result ∧ text.toList = resultDescriptor result ++ rest.toList := by
  rw [← readResultType_eq_some_iff, leadingResultType?, Option.map_eq_some_iff]
  constructor
  · rintro ⟨⟨found, behind⟩, hread, hpair⟩
    obtain ⟨rfl, rfl⟩ := Prod.mk.inj hpair
    rw [hread, String.toList_ofList]
  · intro hread
    exact ⟨(result, rest.toList), hread, by simp only [String.ofList_toList]⟩

/-- No descriptor of a type goes on as that of another type. -/
theorem descriptor_append_inj {type other : FieldType} {rest behind : List Char}
    (htype : type.Expressible) (hother : other.Expressible)
    (h : type.descriptor ++ rest = other.descriptor ++ behind) : type = other ∧ rest = behind := by
  have hread : readFieldType (type.descriptor ++ rest) = some (type, rest) :=
    readFieldType_descriptor_append htype rest
  rw [h, readFieldType_descriptor_append hother, Option.some.injEq, Prod.mk.injEq] at hread
  exact ⟨hread.1.symm, hread.2.symm⟩

/-- Different types have different descriptors. -/
theorem injOn_descriptor : Set.InjOn FieldType.descriptor {type | type.Expressible} := by
  intro type htype other hother h
  have happended : type.descriptor ++ [] = other.descriptor ++ [] := congrArg (· ++ []) h
  exact (descriptor_append_inj htype hother happended).1

/-- For all texts: the readers of field, method and result descriptors accept exactly the written
forms of the types with at most 255 dimensions and no semicolon in the name of a class, give back
these types, and the last one leaves what follows. Such types have different written forms, so
that there is no choice of what to read. -/
theorem descriptor_readers_exact :
    (∀ (text : String) (type : FieldType),
      fieldType? text = some type ↔ type.Expressible ∧ text.toList = type.descriptor)
    ∧ (∀ (text : String) (parameters : List FieldType) (result : Option FieldType),
      methodType? text = some ⟨parameters, result⟩
        ↔ (∀ parameter ∈ parameters, parameter.Expressible) ∧ ResultExpressible result
          ∧ text.toList
            = '(' :: (parameters.flatMap FieldType.descriptor ++ ')' :: resultDescriptor result))
    ∧ (∀ (text rest : String) (result : Option FieldType),
      leadingResultType? text = some (result, rest)
        ↔ ResultExpressible result ∧ text.toList = resultDescriptor result ++ rest.toList)
    ∧ Set.InjOn FieldType.descriptor {type | type.Expressible} := by
  refine ⟨fun _ _ => fieldType?_eq_some_iff, fun text parameters result => ?_,
    fun _ _ _ => leadingResultType?_eq_some_iff, injOn_descriptor⟩
  rw [methodType?_eq_some_iff]
  constructor
  · rintro ⟨⟨hparameters, hresult⟩, htext⟩
    exact ⟨hparameters, hresult, htext⟩
  · rintro ⟨hparameters, hresult, htext⟩
    exact ⟨⟨hparameters, hresult⟩, htext⟩

end Descriptor

end ClassAtlas
