import ClassAtlas.Proofs.ClassFile.Nesting
import Mathlib.Data.Nat.SuccPred
import Mathlib.Order.CompletePartialOrder
import Mathlib.Order.SuccPred.IntervalSucc

/-!
# Slots and names of parameters

The parameters of a method occupy local variable slots in order, behind the receiver of an
instance method; a wide parameter takes two of them. Decoding rejects a method whose
parameters do not end within the 255 slots that a call can pass. So the slots of the
parameters of an accepted method do not overlap, and the local variable that occupies the
slot of a parameter from the first instruction on gives the parameter its name, wherever it
stands in the tables of the method body.
-/

namespace ClassAtlas

/-! ## Slots in a row -/

/-- Parameters take as many slots as their parts do together. -/
theorem parameterSlots_append (first second : List FieldType) :
    parameterSlots (first ++ second) = parameterSlots first + parameterSlots second := by
  induction first with
  | nil => exact (Nat.zero_add _).symm
  | cons type first ih =>
    calc parameterSlots (type :: first ++ second)
        = type.slotSize + parameterSlots (first ++ second) := rfl
      _ = type.slotSize + parameterSlots first + parameterSlots second := by
        rw [ih, Nat.add_assoc]

/-- The wide primitive types take two slots, all other types one. -/
theorem FieldType.slotSize_eq (type : FieldType) :
    type.slotSize = if type = .primitive .long ∨ type = .primitive .double then 2 else 1 := by
  cases type with
  | primitive kind => cases kind <;> rfl
  | object internalName => rfl
  | array element => rfl

namespace Method

variable {method : Method} {position : Nat} {type : FieldType}

/-- The next parameter comes right behind. -/
theorem parameterSlot_succ (h : method.type.parameters[position]? = some type) :
    method.parameterSlot (position + 1) = method.parameterSlot position + type.slotSize := by
  have hlast : parameterSlots [type] = type.slotSize := rfl
  rw [parameterSlot, parameterSlot, List.take_add_one, h, Option.toList_some, parameterSlots_append,
    hlast, Nat.add_assoc]

/-- Later parameters have later slots. -/
theorem parameterSlot_mono (method : Method) : Monotone method.parameterSlot := by
  refine monotone_nat_of_le_succ fun position => ?_
  rw [parameterSlot, parameterSlot, List.take_add_one, parameterSlots_append]
  omega

/-- The slots that a parameter takes: they end where the next one begins. -/
def slotsAt (method : Method) (position : Nat) : Set Nat :=
  Set.Ico (method.parameterSlot position) (method.parameterSlot (position + 1))

/-- How the parameters of a method lie in its slots. -/
structure SlotsFit (method : Method) : Prop where
  /-- The first parameter comes behind the receiver, if there is one. -/
  first : method.parameterSlot 0 = if method.isStatic then 0 else 1
  /-- Each parameter comes right behind the one before it, of which a `long` or a `double` takes
  two slots. -/
  next : ∀ position type, method.type.parameters[position]? = some type →
    method.parameterSlot (position + 1) = method.parameterSlot position
      + if type = .primitive .long ∨ type = .primitive .double then 2 else 1
  /-- No two parameters share a slot. -/
  disjoint : Pairwise fun position other =>
    Disjoint (method.slotsAt position) (method.slotsAt other)
  /-- No parameter takes the slot of the receiver. -/
  receiver_free : method.isStatic = false → ∀ position, 0 ∉ method.slotsAt position
  /-- All slots are below 255. -/
  below : ∀ position < method.arity, ∀ slot ∈ method.slotsAt position, slot < 255
  /-- The first slot of a parameter is a number of two bytes. -/
  countable : ∀ position < method.arity, method.parameterSlot position < 0x10000

/-- Parameters that end within the slots of a call fit into them. -/
theorem slotsFit_of_le
    (h : (if method.isStatic then 0 else 1) + parameterSlots method.type.parameters ≤ 255) :
    method.SlotsFit := by
  have hend : method.parameterSlot method.arity ≤ 255 := by
    rw [parameterSlot, arity, List.take_length]
    exact h
  have hfirst : method.parameterSlot 0 = if method.isStatic then 0 else 1 := rfl
  exact {
    first := hfirst
    next := fun position type hget => by rw [parameterSlot_succ hget, type.slotSize_eq]
    disjoint := method.parameterSlot_mono.pairwise_disjoint_on_Ico_succ
    receiver_free := by
      intro hinstance position hmem
      have hbehind : method.parameterSlot 0 ≤ method.parameterSlot position :=
        method.parameterSlot_mono (Nat.zero_le position)
      rw [hfirst, hinstance] at hbehind
      exact Nat.not_succ_le_zero 0 (hbehind.trans hmem.1)
    below := by
      intro position hlt slot hslot
      have hbehind : method.parameterSlot (position + 1) ≤ 255 :=
        (method.parameterSlot_mono hlt).trans hend
      exact hslot.2.trans_le hbehind
    countable := by
      intro position hlt
      have hslot : method.parameterSlot position ≤ 255 :=
        (method.parameterSlot_mono (Nat.le_of_lt hlt)).trans hend
      omega }

end Method

/-- The parameters of the methods of a decoded class fit into their slots. -/
theorem slotsFit_of_decode {bytes : Bytes} {description : ClassDescription} {method : Method}
    (h : decode bytes = .ok description) (hmem : method ∈ description.methods) :
    method.SlotsFit := by
  obtain ⟨raw, hmeans, _⟩ := decode_eq_ok_iff_exists.1 h
  obtain ⟨member, _, hmember⟩ := exists_mem_of_forall₂ hmeans.methods_mean.2 hmem
  refine Method.slotsFit_of_le ?_
  rw [Method.isStatic, hmember.flags_eq]
  exact hmember.type_described.2

/-! ## Names by slots -/

/-- Whether a body is the first one among the attributes of a method. -/
def Method.FirstBody (method : Method) (body : CodeBody Attribute) : Prop :=
  ∃ front back, method.attributes = front ++ .code body :: back
    ∧ ∀ other, Attribute.code other ∉ front

/-- Whether no parameter attribute of a method names the parameter at a position. -/
def Method.Unrecorded (method : Method) (position : Nat) : Prop :=
  ∀ parameters, Attribute.methodParameters parameters ∈ method.attributes →
    ∀ recorded, parameters[position]? = some recorded → recorded.name = none

deriving instance DecidableEq for LocalVariable

namespace CodeBody

variable {body : CodeBody Attribute} {slot : Nat} {entry : LocalVariable}

/-- Whether a table of a body lists a local variable. -/
def Lists (body : CodeBody Attribute) (entry : LocalVariable) : Prop :=
  ∃ locals, Attribute.localVariableTable locals ∈ body.attributes ∧ entry ∈ locals

/-- Whether one local variable of the tables of a body, and no other, occupies a slot from the
first instruction on. -/
structure SoleOccupant (body : CodeBody Attribute) (slot : Nat) (entry : LocalVariable) :
    Prop where
  /-- The variable is listed. -/
  listed : body.Lists entry
  /-- It occupies the slot. -/
  index_eq : entry.index.toNat = slot
  /-- It does so from the first instruction on. -/
  startPc_eq : entry.startPc = 0
  /-- No other variable does. -/
  sole : ∀ other, body.Lists other → other.index.toNat = slot → other.startPc = 0 → other = entry

/-- The local variables of a body are those that its tables list. -/
theorem mem_localVariables_iff : entry ∈ body.localVariables ↔ body.Lists entry := by
  rw [localVariables, List.mem_flatMap]
  constructor
  · rintro ⟨value, hvalue, hentry⟩
    cases value with
    | localVariableTable locals => exact ⟨locals, hvalue, hentry⟩
    | _ => cases hentry
  · rintro ⟨locals, hlocals, hentry⟩
    exact ⟨.localVariableTable locals, hlocals, hentry⟩

/-- A variable is alone in its slot if every variable there from the beginning is the same. -/
theorem soleOccupant_iff : body.SoleOccupant slot entry
    ↔ entry ∈ body.localVariables ∧ entry.index.toNat = slot ∧ entry.startPc = 0
      ∧ ∀ other ∈ body.localVariables, other.index.toNat = slot → other.startPc = 0 →
        other = entry := by
  simp only [mem_localVariables_iff]
  constructor
  · rintro ⟨hlisted, hindex, hstart, hsole⟩
    exact ⟨hlisted, hindex, hstart, hsole⟩
  · rintro ⟨hlisted, hindex, hstart, hsole⟩
    exact ⟨hlisted, hindex, hstart, hsole⟩

instance : Decidable (body.SoleOccupant slot entry) :=
  decidable_of_iff _ soleOccupant_iff.symm

/-- The first variable found at a slot is the only one there, wherever it stands. -/
theorem SoleOccupant.find?_eq (h : body.SoleOccupant slot entry) :
    body.localVariables.find? (fun v => v.index.toNat = slot && v.startPc = 0) = some entry := by
  have hmem : entry ∈ body.localVariables := mem_localVariables_iff.2 h.listed
  cases hfind : body.localVariables.find? (fun v => v.index.toNat = slot && v.startPc = 0) with
  | none =>
    have hother := List.find?_eq_none.1 hfind entry hmem
    simp [h.index_eq, h.startPc_eq] at hother
  | some found =>
    have hfound : found.index.toNat = slot ∧ found.startPc = 0 := by
      simpa using List.find?_some hfind
    have hlisted : body.Lists found :=
      mem_localVariables_iff.1 (List.mem_of_find?_eq_some hfind)
    rw [h.sole found hlisted hfound.1 hfound.2]

end CodeBody

namespace Method

variable {method : Method} {body : CodeBody Attribute} {position : Nat} {entry : LocalVariable}

/-- The code of a method is its first body. -/
theorem firstBody_iff : method.FirstBody body ↔ method.code? = some body := by
  have hnone : ∀ front : List Attribute,
      (∀ value ∈ front, value.code? = none) ↔ ∀ other, Attribute.code other ∉ front := by
    refine fun front => ⟨fun h other hmem => (nomatch h _ hmem), fun h value hmem => ?_⟩
    cases value with
    | code other => exact absurd hmem (h other)
    | _ => rfl
  rw [code?, List.findSome?_eq_some_iff]
  constructor
  · rintro ⟨front, back, hattributes, hfront⟩
    exact ⟨front, .code body, back, hattributes, rfl, (hnone front).2 hfront⟩
  · rintro ⟨front, value, back, hattributes, hvalue, hfront⟩
    cases value with
    | code other =>
      cases hvalue
      exact ⟨front, back, hattributes, (hnone front).1 hfront⟩
    | _ => cases hvalue

/-- A parameter is unrecorded if no attribute of the method names it. -/
theorem unrecorded_iff : method.Unrecorded position
    ↔ method.attributes.findSome? (Attribute.parameterName? position) = none := by
  rw [List.findSome?_eq_none_iff]
  constructor
  · intro h value hmem
    cases value with
    | methodParameters parameters => exact Option.bind_eq_none_iff.2 (h parameters hmem)
    | _ => rfl
  · intro h parameters hmem
    exact Option.bind_eq_none_iff.1 (h (.methodParameters parameters) hmem)

instance : Decidable (method.Unrecorded position) :=
  decidable_of_iff _ unrecorded_iff.symm

/-- The variable that occupies the slot of a parameter names the parameter. -/
theorem SlotsFit.parameterName?_eq (hfit : method.SlotsFit) (hbody : method.FirstBody body)
    (hlt : position < method.arity) (hunrecorded : method.Unrecorded position)
    (hsole : body.SoleOccupant (method.parameterSlot position) entry) :
    method.parameterName? position = some entry.name := by
  have hslot : ¬0xFFFF < method.parameterSlot position := by
    have hcountable := hfit.countable position hlt
    omega
  rw [parameterName?, if_neg (Nat.not_le_of_lt hlt), unrecorded_iff.1 hunrecorded]
  simp only [if_neg hslot, firstBody_iff.1 hbody, hsole.find?_eq, Option.bind_eq_bind,
    Option.bind_some, Option.pure_def]

end Method

/-- In every method of a decoded class, the parameters take slots of their own in order behind
the receiver, all below 255. A parameter without a recorded name has the name of the one variable
that occupies its slot from the first instruction on, whatever else the tables of the first body
list. -/
theorem parameter_slots_name_parameters (bytes : Bytes) (description : ClassDescription)
    (h : decode bytes = .ok description) :
    ∀ method ∈ description.methods, method.SlotsFit
      ∧ ∀ body, method.FirstBody body →
        ∀ position < method.arity, method.Unrecorded position →
        ∀ entry, body.SoleOccupant (method.parameterSlot position) entry →
          method.parameterName? position = some entry.name := by
  intro method hmem
  have hfit : method.SlotsFit := slotsFit_of_decode h hmem
  refine ⟨hfit, fun body hbody position hlt hunrecorded entry hsole => ?_⟩
  exact hfit.parameterName?_eq hbody hlt hunrecorded hsole

/-- A class file with one method `put` of a `long` and an `int`. Its parameter attribute records
the first parameter without a name, and its body has two tables of local variables. -/
def storeFile : Bytes :=
  [0xCA, 0xFE, 0xBA, 0xBE, 0x00, 0x00, 0x00, 0x34,
    -- Fourteen constants: a class and its name, name and descriptor of the method, names of
    -- attributes, then names and types of local variables.
    0x00, 0x0F,
    0x01, 0x00, 0x01, 0x41,
    0x07, 0x00, 0x01,
    0x01, 0x00, 0x03, 0x70, 0x75, 0x74,
    0x01, 0x00, 0x05, 0x28, 0x4A, 0x49, 0x29, 0x56,
    0x01, 0x00, 0x04, 0x43, 0x6F, 0x64, 0x65,
    0x01, 0x00, 0x12, 0x4C, 0x6F, 0x63, 0x61, 0x6C, 0x56, 0x61, 0x72, 0x69, 0x61, 0x62, 0x6C, 0x65,
      0x54, 0x61, 0x62, 0x6C, 0x65,
    0x01, 0x00, 0x10, 0x4D, 0x65, 0x74, 0x68, 0x6F, 0x64, 0x50, 0x61, 0x72, 0x61, 0x6D, 0x65, 0x74,
      0x65, 0x72, 0x73,
    0x01, 0x00, 0x04, 0x74, 0x68, 0x69, 0x73,
    0x01, 0x00, 0x03, 0x4C, 0x41, 0x3B,
    0x01, 0x00, 0x03, 0x6B, 0x65, 0x79,
    0x01, 0x00, 0x01, 0x4A,
    0x01, 0x00, 0x05, 0x76, 0x61, 0x6C, 0x75, 0x65,
    0x01, 0x00, 0x01, 0x49,
    0x01, 0x00, 0x04, 0x74, 0x65, 0x6D, 0x70,
    -- The class and its method.
    0x00, 0x21, 0x00, 0x02, 0x00, 0x00, 0x00, 0x00, 0x00, 0x00,
    0x00, 0x01,
    0x00, 0x01, 0x00, 0x03, 0x00, 0x04, 0x00, 0x02,
    0x00, 0x07, 0x00, 0x00, 0x00, 0x05, 0x01, 0x00, 0x00, 0x00, 0x00,
    0x00, 0x05, 0x00, 0x00, 0x00, 0x45,
      0x00, 0x00, 0x00, 0x04, 0x00, 0x00, 0x00, 0x01, 0xB1, 0x00, 0x00, 0x00, 0x02,
      0x00, 0x06, 0x00, 0x00, 0x00, 0x16, 0x00, 0x02,
        0x00, 0x01, 0x00, 0x00, 0x00, 0x0E, 0x00, 0x0B, 0x00, 0x01,
        0x00, 0x00, 0x00, 0x01, 0x00, 0x0C, 0x00, 0x0D, 0x00, 0x03,
      0x00, 0x06, 0x00, 0x00, 0x00, 0x16, 0x00, 0x02,
        0x00, 0x00, 0x00, 0x01, 0x00, 0x0A, 0x00, 0x0B, 0x00, 0x01,
        0x00, 0x00, 0x00, 0x01, 0x00, 0x08, 0x00, 0x09, 0x00, 0x00,
    0x00, 0x00]

/-- The slot of the first parameter is taken again later, by a variable that is listed first, and
the two parameters are named in different tables. -/
theorem store_parameters_named :
    ∃ description, decode storeFile = .ok description
      ∧ ∃ method ∈ description.methods, method.name = "put" ∧ method.SlotsFit
        ∧ method.parameterSlot 0 = 1 ∧ method.parameterName? 0 = some "key"
        ∧ method.parameterSlot 1 = 3 ∧ method.parameterName? 1 = some "value" := by
  have hcheck : (decode storeFile).toOption.any (fun description =>
      description.methods.any fun method => method.code?.any fun body =>
        method.name = "put" ∧ method.arity = 2
          ∧ method.Unrecorded 0 ∧ method.parameterSlot 0 = 1
          ∧ body.SoleOccupant 1 ⟨0, 1, "key", .primitive .long, 1⟩
          ∧ method.Unrecorded 1 ∧ method.parameterSlot 1 = 3
          ∧ body.SoleOccupant 3 ⟨0, 1, "value", .primitive .int, 3⟩) = true := by
    decide +kernel
  cases hread : decode storeFile with
  | error error =>
    rw [hread] at hcheck
    cases hcheck
  | ok description =>
    rw [hread] at hcheck
    obtain ⟨method, hmem, hmethod⟩ := List.any_eq_true.1 hcheck
    obtain ⟨body, hbody, hconditions⟩ := (Option.any_eq_true _ _).1 hmethod
    obtain ⟨hname, harity, hkey, hkeySlot, hkeySole, hvalue, hvalueSlot, hvalueSole⟩ :=
      of_decide_eq_true hconditions
    obtain ⟨hfit, hnames⟩ := parameter_slots_name_parameters _ _ hread method hmem
    have hnamed := hnames body (Method.firstBody_iff.2 hbody)
    refine ⟨description, rfl, method, hmem, hname, hfit, hkeySlot, ?_, hvalueSlot, ?_⟩
    · exact hnamed 0 (by omega) hkey _ (hkeySlot.symm ▸ hkeySole)
    · exact hnamed 1 (by omega) hvalue _ (hvalueSlot.symm ▸ hvalueSole)

end ClassAtlas
