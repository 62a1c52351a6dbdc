import ClassAtlas.Proofs.ClassFile.AttributeExactness
import ClassAtlas.Proofs.ClassFile.Truncation

/-!
# Lists of attributes

The attributes of an item are read one after the other, each from the bytes of its
own frame. The limit of the reader only bounds the bytes at hand, so a list can be
told without it: a number, and as many attributes. An attribute of another name
than the known ones can therefore be put between any two attributes of a list: the
others, the bytes behind the list and every fault stay what they were.
-/

namespace ClassAtlas

namespace Reader

variable {α γ : Type} {item : Reader α}

/-! ## Items in two runs -/

/-- The bytes of a number are read off as the number. -/
theorem u2_append (value : UInt16) (rest : Bytes) :
    u2 (u2Bytes value ++ rest) = .ok (value, rest) :=
  u2_eq_ok_iff.2 rfl

theorem bind_of_ok {first : Reader α} {next : α → Reader γ} {input rest : Bytes} {value : α}
    (h : first input = .ok (value, rest)) : (first >>= next) input = next value rest := by
  change (first input).bind (fun read => next read.1 read.2) = next value rest
  rw [h]
  rfl

theorem bind_of_error {first : Reader α} {next : α → Reader γ} {input : Bytes} {fault : Fault}
    (h : first input = .error fault) : (first >>= next) input = .error fault := by
  change (first input).bind (fun read => next read.1 read.2) = .error fault
  rw [h]
  rfl

/-- Items behind their number are read as many times. -/
theorem counted_append (item : Reader α) (count : UInt16) (input : Bytes) :
    counted item (u2Bytes count ++ input) = repeated count.toNat item input :=
  bind_of_ok (u2_append count input)

/-- Items behind others are read as items of their own. -/
theorem repeatedBehind_eq_map (item : Reader α) (count : Nat) (read : List α) :
    repeatedBehind item count read = (read.reverse ++ ·) <$> repeated count item := by
  induction count generalizing read with
  | zero =>
    funext input
    change Except.ok (read.reverse, input) = Except.ok (read.reverse ++ [], input)
    rw [List.append_nil]
  | succ count ih =>
    rw [repeated, repeatedBehind_succ, repeatedBehind_succ, map_bind]
    congr 1
    funext value
    rw [ih (value :: read), ih [value], Functor.map_map]
    simp

theorem repeated_succ (item : Reader α) (count : Nat) :
    repeated (count + 1) item
      = item >>= fun value => (value :: ·) <$> repeated count item := by
  rw [repeated, repeatedBehind_succ]
  congr 1
  funext value
  exact repeatedBehind_eq_map item count [value]

/-- A row of items is a first row and the row behind it. -/
theorem repeated_add (item : Reader α) (first second : Nat) :
    repeated (first + second) item
      = repeated first item >>= fun front => (front ++ ·) <$> repeated second item := by
  induction first with
  | zero =>
    have hempty : repeated 0 item = pure [] := rfl
    rw [Nat.zero_add, hempty, pure_bind]
    exact (id_map (repeated second item)).symm
  | succ first ih =>
    have hcount : first + 1 + second = first + second + 1 := by omega
    rw [hcount, repeated_succ, repeated_succ, ih, bind_assoc]
    congr 1
    funext value
    simp [map_bind, bind_map_left, Functor.map_map]

/-! ## An item more -/

/-- An outcome with one value more at a position. -/
def inserted (position : Nat) (value : α) : Outcome (List α) → Outcome (List α)
  | .ok (values, rest) => .ok (values.insertIdx position value, rest)
  | .error fault => .error fault

/-- The offset of the field at which a reader of `input` stops for the shape of the bytes. -/
def stoppedAt? (input : Bytes) : Outcome α → Option Nat
  | .error (.shape _ remaining) => some (input.length - remaining)
  | _ => none

theorem map_of_ok {convert : α → γ} {reader : Reader α} {input rest : Bytes} {value : α}
    (h : reader input = .ok (value, rest)) :
    (convert <$> reader) input = .ok (convert value, rest) :=
  map_eq_ok_iff.2 ⟨value, rfl, h⟩

theorem map_of_error {convert : α → γ} {reader : Reader α} {input : Bytes} {fault : Fault}
    (h : reader input = .error fault) : (convert <$> reader) input = .error fault := by
  rw [map_eq_pure_bind]
  exact bind_of_error h

/-- Inserting at the length of a front puts a value behind the front. -/
theorem insertIdx_length_append (front back : List α) (value : α) :
    (front ++ back).insertIdx front.length value = front ++ value :: back := by
  induction front with
  | nil => rfl
  | cons first front ih => exact congrArg (first :: ·) ih

/-- An item put behind the first items of a counted list shows as one value more. -/
theorem counted_insert {count : UInt16} {front extra rest : Bytes} {before : List α} {value : α}
    (hbefore : repeated before.length item (front ++ rest) = .ok (before, rest))
    (hmoved : repeated before.length item (front ++ (extra ++ rest)) = .ok (before, extra ++ rest))
    (hextra : item (extra ++ rest) = .ok (value, rest))
    (hle : before.length ≤ count.toNat) (hcount : count.toNat < 0xFFFF) :
    counted item (u2Bytes (count + 1) ++ (front ++ (extra ++ rest)))
      = inserted before.length value (counted item (u2Bytes count ++ (front ++ rest))) := by
  obtain ⟨left, hleft⟩ := Nat.exists_eq_add_of_le hle
  have hnumber : (count + 1).toNat = before.length + (left + 1) := by
    rw [UInt16.toNat_add]
    simp only [UInt16.reduceToNat]
    omega
  rw [counted_append, counted_append, hnumber, hleft, repeated_add item before.length (left + 1),
    repeated_add item before.length left, bind_of_ok hbefore, bind_of_ok hmoved]
  -- both lists are now told by what the items behind the place come to
  cases hrest : repeated left item rest with
  | ok found =>
    obtain ⟨values, behind⟩ := found
    have hlonger : repeated (left + 1) item (extra ++ rest) = .ok (value :: values, behind) := by
      rw [repeated_succ, bind_of_ok hextra]
      exact map_of_ok hrest
    rw [map_of_ok hrest, map_of_ok hlonger, inserted, insertIdx_length_append]
  | error fault =>
    have hlonger : repeated (left + 1) item (extra ++ rest) = .error fault := by
      rw [repeated_succ, bind_of_ok hextra]
      exact map_of_error hrest
    rw [map_of_error hrest, map_of_error hlonger, inserted]

/-- A fault that stays as far from the end lies further from the start by the bytes put in. -/
theorem stoppedAt?_inserted {input longer : Bytes} {width position : Nat} {value : α}
    {outcome : Outcome (List α)} (hlength : longer.length = input.length + width)
    (hleaves : Leaves input.length outcome) :
    stoppedAt? longer (inserted position value outcome)
      = (stoppedAt? input outcome).map (· + width) := by
  match outcome, hleaves with
  | .ok (_, _), _ => rfl
  | .error (.rejected _), _ => rfl
  | .error (.shape _ remaining), hleaves =>
    have hle : remaining ≤ input.length := hleaves
    have hmoved : longer.length - remaining = input.length - remaining + width := by omega
    exact congrArg some hmoved

end Reader

namespace AttributeReader

open Reader

variable {pool : ConstantPool} {input rest : Bytes}

/-! ## Lists without a limit -/

/-- A list of attributes, with the limit that its bytes are. -/
def attributeList (pool : ConstantPool) : Reader (List Attribute) :=
  fun input => attributes pool input.length input

/-- One attribute of a list. -/
def nextAttribute (pool : ConstantPool) : Reader Attribute :=
  single pool (attributeList pool)

/-- Any limit that is high enough gives the same list. -/
theorem attributes_eq_attributeList {limit : Nat} (h : input.length ≤ limit) :
    attributes pool limit input = attributeList pool input :=
  (attributes_continued pool limit input.length).agrees input h (Nat.le_refl _)

/-- A list carries on from a limited one. -/
theorem attributeList_continued (pool : ConstantPool) (short long : Nat) :
    Continued short long (attributes pool short) (attributeList pool) where
  agrees _ hshort _ := attributes_eq_attributeList hshort
  continues input more hshort _ :=
    (attributes_continued pool short (input ++ more).length).continues input more hshort
      (Nat.le_refl _)
  shrinks input := (attributes_continued pool input.length input.length).shrinks input

/-- A list of attributes is a number and as many attributes. -/
theorem attributeList_eq_counted (pool : ConstantPool) :
    attributeList pool = counted (nextAttribute pool) := by
  funext input
  cases input with
  | nil => rfl
  | cons first rest =>
    have hitem : Continued (rest.length + 1) (rest.length + 1)
        (single pool (attributes pool rest.length)) (nextAttribute pool) :=
      single_continued (attributeList_continued pool rest.length rest.length)
    exact hitem.counted.agrees (first :: rest) (Nat.le_refl _) (Nat.le_refl _)

/-- An attribute is read from its bytes, and from no others. -/
theorem nextAttribute_reads (pool : ConstantPool) (limit : Nat) :
    ReadsUpTo (limit + 1) (nextAttribute pool) RawAttribute.bytes (AttributeMeans pool) := by
  apply single_reads
  intro input values rest _
  exact attributes_reads input.length input values rest (Nat.le_refl _)

/-- Attributes are read from their own bytes, whatever follows them. -/
theorem repeated_nextAttribute_moved {front other : Bytes} {before : List Attribute}
    (h : repeated before.length (nextAttribute pool) (front ++ rest) = .ok (before, rest)) :
    repeated before.length (nextAttribute pool) (front ++ other) = .ok (before, other) := by
  have hlimit : (front ++ rest).length ≤ (front ++ rest).length + 1 := by omega
  obtain ⟨raws, hcount, hmeans, hbytes⟩ :=
    (repeated_eq_ok_iff (nextAttribute_reads pool _) hlimit).1 h
  have hfront : front = raws.flatMap RawAttribute.bytes := List.append_cancel_right hbytes
  have hlimit' : (front ++ other).length ≤ (front ++ other).length + 1 := by omega
  exact (repeated_eq_ok_iff (nextAttribute_reads pool _) hlimit').2
    ⟨raws, hcount, hmeans, by rw [hfront]⟩

/-- An attribute of a name without a known form is kept with its bytes. -/
theorem nextAttribute_unknown {index : UInt16} {name : String} {content : Bytes}
    (hname : pool.utf8 index = .ok name) (hunknown : name ∉ knownAttributeNames)
    (hcontent : content.length < 0x100000000) (rest : Bytes) :
    nextAttribute pool (RawAttribute.framed index content ++ rest)
      = .ok (.unknown name content, rest) :=
  single_eq_ok_iff.2 ⟨index, name, content, ConstantPool.utf8_eq_ok_iff.1 hname, hcontent,
    .inl ⟨knownContent?_eq_none_iff.2 hunknown, rfl⟩, rfl⟩

/-- In every list, behind any attributes that are read from it, an attribute of a name without a
known form can be put with any content. The list then has the attribute with its bytes at this
position; all its other attributes, the bytes behind it and every cause of failure stay the same,
and a field that does not fit lies further on by the bytes of the attribute. -/
theorem unknown_attributes_transparent {limit limit' : Nat} {count index : UInt16}
    {front content list longer : Bytes} {before : List Attribute} {name : String}
    (hbefore : repeated before.length (nextAttribute pool) (front ++ rest) = .ok (before, rest))
    (hle : before.length ≤ count.toNat) (hcount : count.toNat < 65535)
    (hname : pool.utf8 index = .ok name) (hunknown : name ∉ knownAttributeNames)
    (hcontent : content.length < 0x100000000)
    (hlist : list = u2Bytes count ++ (front ++ rest))
    (hlonger : longer
      = u2Bytes (count + 1) ++ (front ++ (RawAttribute.framed index content ++ rest)))
    (hlimit : list.length ≤ limit) (hlimit' : longer.length ≤ limit') :
    attributes pool limit' longer
      = inserted before.length (.unknown name content) (attributes pool limit list)
    ∧ stoppedAt? longer (attributes pool limit' longer)
      = (stoppedAt? list (attributes pool limit list)).map
        (· + (RawAttribute.framed index content).length) := by
  have hinserted : attributeList pool longer
      = inserted before.length (.unknown name content) (attributeList pool list) := by
    rw [hlist, hlonger, attributeList_eq_counted]
    exact counted_insert hbefore (repeated_nextAttribute_moved hbefore)
      (nextAttribute_unknown hname hunknown hcontent rest) hle hcount
  have hlength : longer.length = list.length + (RawAttribute.framed index content).length := by
    rw [hlist, hlonger]
    simp only [List.length_append, length_u2Bytes]
    omega
  rw [attributes_eq_attributeList hlimit, attributes_eq_attributeList hlimit', hinserted]
  exact ⟨rfl, stoppedAt?_inserted hlength ((attributeList_continued pool 0 0).shrinks list)⟩

/-- Two markers, and an attribute of a vendor. -/
def vendorPool : ConstantPool :=
  ⟨#[.usable (.utf8 "Deprecated"), .usable (.utf8 "Vendor"), .usable (.utf8 "Synthetic")]⟩

/-- The attribute of the vendor goes between the markers; where the second marker declares two
bytes and one is left, its missing content lies at offset 14, and now seven bytes further on. -/
theorem vendor_attribute_transparent :
    attributes vendorPool 22
        [0, 3, 0, 1, 0, 0, 0, 0, 0, 2, 0, 0, 0, 1, 0xAB, 0, 3, 0, 0, 0, 0, 0xFF]
      = .ok ([.deprecated, .unknown "Vendor" [0xAB], .synthetic], [0xFF])
    ∧ stoppedAt? [0, 3, 0, 1, 0, 0, 0, 0, 0, 2, 0, 0, 0, 1, 0xAB, 0, 3, 0, 0, 0, 2, 0xFF]
        (attributes vendorPool 22
          [0, 3, 0, 1, 0, 0, 0, 0, 0, 2, 0, 0, 0, 1, 0xAB, 0, 3, 0, 0, 0, 2, 0xFF])
      = some (14 + 7) := by
  have hbefore (rest : Bytes) : repeated 1 (nextAttribute vendorPool)
      ([0, 1, 0, 0, 0, 0] ++ rest) = .ok ([.deprecated], rest) := rfl
  have hunknown : "Vendor" ∉ knownAttributeNames := by decide
  constructor
  · exact (@unknown_attributes_transparent vendorPool [0, 3, 0, 0, 0, 0, 0xFF] 15 22 2 2
      [0, 1, 0, 0, 0, 0] [0xAB] [0, 2, 0, 1, 0, 0, 0, 0, 0, 3, 0, 0, 0, 0, 0xFF] _ [.deprecated]
      "Vendor" (hbefore _) (by decide) (by decide) rfl hunknown (by decide) rfl rfl (by decide)
      (by decide)).1.trans rfl
  · exact (@unknown_attributes_transparent vendorPool [0, 3, 0, 0, 0, 2, 0xFF] 15 22 2 2
      [0, 1, 0, 0, 0, 0] [0xAB] [0, 2, 0, 1, 0, 0, 0, 0, 0, 3, 0, 0, 0, 2, 0xFF] _ [.deprecated]
      "Vendor" (hbefore _) (by decide) (by decide) rfl hunknown (by decide) rfl rfl (by decide)
      (by decide)).2.trans rfl

end AttributeReader

end ClassAtlas
