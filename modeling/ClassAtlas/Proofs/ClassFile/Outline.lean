import ClassAtlas.Proofs.ClassFile.AttributeLists
import ClassAtlas.Proofs.ClassFile.DecodeExactness

/-!
# The outline of a class file

The outline of a class file is the row of its fields outside the contents of
attributes: header, constants, class, members, and for each attribute of a class, a
field or a method its frame and its content as a whole. It is told by widths and
numbers alone, and no content is looked into. Where the reader of a class file runs
out of bytes, it does so at a field of the outline.
-/

namespace ClassAtlas

open Reader

/-- What a field outside the contents of attributes belongs to. -/
inductive FileRegion where
  /-- The magic number and the version. -/
  | header
  /-- The constants and their number. -/
  | pool
  /-- Flags, names and interfaces of the class, and the numbers of its members. -/
  | classHeader
  /-- Flags, name and type of a field or a method. -/
  | memberHeader
  /-- The number of attributes of an item, and name and length of each. -/
  | attributeHeader
  /-- The whole content of an attribute. -/
  | attributeContent
  deriving DecidableEq, Repr

/-- Walks over fields up to the first one that does not fit, of which it tells what the field
belongs to and how many bytes were left there. -/
abbrev Outline (α : Type) := StateT Bytes (Except (FileRegion × Nat)) α

namespace Outline

variable {α β γ δ : Type}

/-- A field of a given width. -/
def field (region : FileRegion) (width : Nat) : Outline Bytes := fun bytes =>
  if width ≤ bytes.length then .ok (bytes.take width, bytes.drop width)
  else .error (region, bytes.length)

/-- A field that holds a number on which later fields depend. -/
def number (region : FileRegion) (width : Nat) : Outline Nat :=
  bigEndian <$> field region width

/-- A field whose value does not matter to the outline. -/
def skip (region : FileRegion) (width : Nat) : Outline Unit :=
  (fun _ => ()) <$> field region width

/-- A given number of items. -/
def items (item : Outline Unit) : (count : Nat) → Outline Unit
  | 0 => pure ()
  | count + 1 => do
    item
    items item count

/-- Items behind their number. -/
def counted (region : FileRegion) (item : Outline Unit) : Outline Unit := do
  let count ← number region 2
  items item count

/-- What follows the tag of a constant; tells whether the constant is wide. -/
def payload (tag : Nat) : Outline Bool :=
  match tag with
  | 1 => do
    let length ← number .pool 2
    skip .pool length
    return false
  | 3 | 4 => do
    skip .pool 4
    return false
  | 5 | 6 => do
    skip .pool 8
    return true
  | 7 | 8 | 16 | 19 | 20 => do
    skip .pool 2
    return false
  | 9 | 10 | 11 | 12 | 17 | 18 => do
    skip .pool 2
    skip .pool 2
    return false
  | 15 => do
    skip .pool 1
    skip .pool 2
    return false
  | _ => return false

/-- One constant with its tag. -/
def constant : Outline Bool := do
  let tag ← number .pool 1
  payload tag

/-- The constants that fill a number of slots, of which a wide one fills two. -/
def constants : (slots : Nat) → Outline Unit
  | 0 => pure ()
  | slots + 1 => do
    let isWide ← constant
    if isWide then
      match slots with
      | 0 => pure ()
      | slots + 1 => constants slots
    else constants slots

/-- The constants behind the number of their slots plus one. -/
def pool : Outline Unit := do
  let count ← number .pool 2
  constants (count - 1)

/-- The attributes of an item, each with its content as a whole. -/
def attributes : Outline Unit :=
  counted .attributeHeader do
    skip .attributeHeader 2
    let length ← number .attributeHeader 4
    skip .attributeContent length

/-- A field or a method. -/
def member : Outline Unit := do
  skip .memberHeader 2
  skip .memberHeader 2
  skip .memberHeader 2
  attributes

/-- The magic number and the version. -/
def version : Outline Unit := do
  skip .header 4
  skip .header 2
  skip .header 2

/-- A whole class file. -/
def classFile : Outline Unit := do
  version
  pool
  skip .classHeader 2
  skip .classHeader 2
  skip .classHeader 2
  counted .classHeader (skip .classHeader 2)
  counted .classHeader member
  counted .classHeader member
  attributes

/-! ## Readers along an outline -/

/-- On at most `limit` bytes, a reader takes the fields of an outline: where it gives a value, it
is at the end of the outline, and bytes of the wrong shape are bytes that end inside a field of
the outline. -/
structure Guides (limit : Nat) (outline : Outline β) (reader : Reader α) (view : α → β) :
    Prop where
  /-- A value is found where the outline ends. -/
  value : ∀ input value rest, input.length ≤ limit → reader input = .ok (value, rest) →
    outline input = .ok (view value, rest) ∧ rest.length ≤ input.length
  /-- The bytes run out at a field of the outline. -/
  fault : ∀ input fault remaining, input.length ≤ limit →
    reader input = .error (.shape fault remaining) →
      fault = .endOfInput ∧ remaining ≤ input.length
        ∧ ∃ region, outline input = .error (region, remaining)

/-- The view of a value that does not matter to the outline. -/
abbrev unseen : α → Unit := fun _ => ()

variable {limit : Nat} {reader : Reader α} {view : α → β}

/-- A walk goes on behind what its first part has told. -/
theorem bind_of_ok {first : Outline α} {next : α → Outline β} {input rest : Bytes} {value : α}
    (h : first input = .ok (value, rest)) : (first >>= next) input = next value rest := by
  change (first input).bind (fun found => next found.1 found.2) = next value rest
  rw [h]
  rfl

/-- A walk stops where its first part stops. -/
theorem bind_of_error {first : Outline α} {next : α → Outline β} {input : Bytes}
    {stop : FileRegion × Nat} (h : first input = .error stop) :
    (first >>= next) input = .error stop := by
  change (first input).bind (fun found => next found.1 found.2) = .error stop
  rw [h]
  rfl

namespace Guides

/-- What reads nothing is guided by what walks over nothing. -/
theorem pure {value : α} {told : β} (h : view value = told) :
    Guides limit (pure told) (pure value : Reader α) view where
  value := by
    intro input found rest _ hread
    obtain ⟨rfl, rfl⟩ := pure_eq_ok_iff.1 hread
    rw [h]
    exact ⟨rfl, Nat.le_refl _⟩
  fault := by
    intro input fault remaining _ hread
    cases hread

/-- A rejection tells no place, so that any outline will do. -/
theorem reject (outline : Outline β) (error : DecodeError) (view : α → β) :
    Guides limit outline (reject error) view where
  value := by
    intro input found rest _ hread
    cases hread
  fault := by
    intro input fault remaining _ hread
    cases hread

/-- Readers in a row are guided by outlines in a row, if the second outline follows the view of what
was read first. -/
theorem bind {outline : Outline β} {behind : β → Outline δ} {next : α → Reader γ}
    {view' : γ → δ} (h : Guides limit outline reader view)
    (hnext : ∀ value, Guides limit (behind (view value)) (next value) view') :
    Guides limit (outline >>= behind) (reader >>= next) view' where
  value := by
    intro input value rest hlimit hread
    obtain ⟨found, middle, hfirst, hsecond⟩ := bind_eq_ok_iff.1 hread
    obtain ⟨houtline, hmiddle⟩ := h.value input found middle hlimit hfirst
    obtain ⟨hbehind, hrest⟩ := (hnext found).value middle value rest (by omega) hsecond
    rw [bind_of_ok houtline]
    exact ⟨hbehind, by omega⟩
  fault := by
    intro input fault remaining hlimit hread
    cases hfirst : reader input with
    | error stop =>
      rw [Reader.bind_of_error hfirst] at hread
      cases hread
      obtain ⟨hfault, hremaining, region, houtline⟩ := h.fault input fault remaining hlimit hfirst
      exact ⟨hfault, hremaining, region, bind_of_error houtline⟩
    | ok found =>
      obtain ⟨value, middle⟩ := found
      rw [Reader.bind_of_ok hfirst] at hread
      obtain ⟨houtline, hmiddle⟩ := h.value input value middle hlimit hfirst
      obtain ⟨hfault, hremaining, region, hbehind⟩ :=
        (hnext value).fault middle fault remaining (by omega) hread
      exact ⟨hfault, by omega, region, by rw [bind_of_ok houtline, hbehind]⟩

/-- A check takes no field. -/
theorem checked_bind {outline : Outline δ} {check : Except DecodeError α} {next : α → Reader γ}
    {view' : γ → δ} (hnext : ∀ value, Guides limit outline (next value) view') :
    Guides limit outline (checked check >>= next) view' := by
  cases check with
  | ok value =>
    have hpure : (checked (.ok value) >>= next) = next value := pure_bind value next
    rw [hpure]
    exact hnext value
  | error error =>
    have hreject : (checked (.error error) >>= next : Reader γ) = Reader.reject error := rfl
    rw [hreject]
    exact reject outline error view'

/-- A check reads nothing: whatever it rejects, there is nothing to walk over. -/
theorem checked (check : Except DecodeError α) :
    Guides limit (Pure.pure ()) (Reader.checked check) unseen := by
  cases check with
  | ok value => exact Guides.pure rfl
  | error error => exact reject _ error unseen

/-- Behind the last field nothing is taken any more. -/
theorem bind_last {outline : Outline Unit} {next : α → Reader γ}
    (h : Guides limit outline reader unseen)
    (hnext : ∀ value, Guides limit (Pure.pure ()) (next value) unseen) :
    Guides limit outline (reader >>= next) unseen := by
  have hsame : (outline >>= fun _ => Pure.pure ()) = outline := bind_pure outline
  rw [← hsame]
  exact h.bind hnext

/-- Converting what was read makes no difference to where it is read. -/
theorem map {outline : Outline Unit} (h : Guides limit outline reader unseen)
    (convert : α → γ) : Guides limit outline (convert <$> reader) unseen := by
  rw [map_eq_pure_bind]
  exact h.bind_last fun _ => Guides.pure rfl

/-- Bytes that are converted are a field that is viewed. -/
theorem take {region : FileRegion} {width : Nat} {convert : Bytes → α} {told : Bytes → β}
    (hview : ∀ bytes : Bytes, bytes.length = width → view (convert bytes) = told bytes) :
    Guides limit (told <$> field region width) (convert <$> Reader.take width) view where
  value := by
    intro input value rest _ hread
    obtain ⟨taken, rfl, htake⟩ := map_eq_ok_iff.1 hread
    obtain ⟨hlength, rfl⟩ := take_eq_ok_iff.1 htake
    have hfield : field region width (taken ++ rest) = .ok (taken, rest) := by
      rw [field, if_pos (by simp [hlength]), ← hlength, List.take_left, List.drop_left]
    rw [map_eq_pure_bind, bind_of_ok hfield, hview taken hlength]
    exact ⟨rfl, by simp⟩
  fault := by
    intro input fault remaining _ hread
    by_cases hfits : width ≤ input.length
    · have htake : Reader.take width input = .ok (input.take width, input.drop width) :=
        take_eq_ok_iff.2 ⟨List.length_take_of_le hfits, (List.take_append_drop ..).symm⟩
      rw [map_of_ok htake] at hread
      cases hread
    · rw [map_of_error (take_of_length_lt (Nat.lt_of_not_le hfits))] at hread
      cases hread
      have hfield : field region width input = .error (region, input.length) := if_neg hfits
      rw [map_eq_pure_bind]
      exact ⟨rfl, Nat.le_refl _, region, bind_of_error hfield⟩

/-! ## Numbers and rows -/

variable {region : FileRegion}

/-- Taking bytes is guided by skipping as many. -/
theorem skip_take (width : Nat) : Guides limit (skip region width) (Reader.take width) unseen := by
  have h : Guides limit (skip region width) (id <$> Reader.take width) unseen :=
    take fun _ _ => rfl
  rwa [id_map] at h

theorem u1 : Guides limit (number region 1) u1 UInt8.toNat := by
  rw [u1_eq_map_take]
  apply take
  intro bytes hlength
  obtain ⟨byte, rfl⟩ := List.length_eq_one_iff.1 hlength
  simp [bigEndian]

theorem u2 : Guides limit (number region 2) u2 UInt16.toNat := by
  rw [u2_eq_map_take]
  apply take
  intro bytes hlength
  have hlt := bigEndian_lt bytes
  rw [hlength] at hlt
  exact UInt16.toNat_ofNat_of_lt' hlt

theorem u4 : Guides limit (number region 4) u4 UInt32.toNat := by
  rw [u4_eq_map_take]
  apply take
  intro bytes hlength
  have hlt := bigEndian_lt bytes
  rw [hlength] at hlt
  exact UInt32.toNat_ofNat_of_lt' hlt

theorem skip_u1 : Guides limit (skip region 1) Reader.u1 unseen := by
  rw [u1_eq_map_take]
  exact take fun _ _ => rfl

theorem skip_u2 : Guides limit (skip region 2) Reader.u2 unseen := by
  rw [u2_eq_map_take]
  exact take fun _ _ => rfl

theorem skip_u4 : Guides limit (skip region 4) Reader.u4 unseen := by
  rw [u4_eq_map_take]
  exact take fun _ _ => rfl

theorem skip_u8 : Guides limit (skip region 8) Reader.u8 unseen := by
  rw [u8_eq_map_take]
  exact take fun _ _ => rfl

/-- Items in a row are guided by the outline of an item in a row. -/
theorem repeated {item : Outline Unit} (h : Guides limit item reader unseen) (count : Nat) :
    Guides limit (items item count) (repeated count reader) unseen := by
  induction count with
  | zero => exact Guides.pure rfl
  | succ count ih =>
    rw [repeated_succ]
    exact h.bind fun value => ih.map (value :: ·)

/-- Counted items are guided by a counted row of outlines. -/
theorem counted {item : Outline Unit} (h : Guides limit item reader unseen) :
    Guides limit (counted region item) (Reader.counted reader) unseen :=
  Guides.u2.bind fun count => h.repeated count.toNat

end Guides

/-! ## Constants -/

section

open PoolReader

theorem utf8_guided (index : UInt16) :
    Guides limit (payload 1) (utf8 index) Constant.isWide := by
  refine Guides.u2.bind fun length => (Guides.skip_take length.toNat).bind fun bytes => ?_
  split
  · exact .pure rfl
  · exact .reject _ _ _

theorem indexPair_guided {build : UInt16 → UInt16 → Constant}
    (hnarrow : ∀ first second, (build first second).isWide = false) :
    Guides limit (payload 9) (indexPair build) Constant.isWide := by
  exact Guides.skip_u2.bind fun first => Guides.skip_u2.bind fun second =>
    .pure (hnarrow first second)

/-- The tag tells what follows it, and how many slots the constant fills. -/
theorem tagged_guided (tag : UInt8) (index : UInt16) :
    Guides limit (payload tag.toNat) (tagged tag index) Constant.isWide := by
  unfold tagged
  split
  case h_1 _ htag =>
    rw [htag]
    exact utf8_guided index
  case h_2 _ htag | h_3 _ htag =>
    rw [htag]
    exact Guides.skip_u4.bind fun _ => .pure rfl
  case h_4 _ htag | h_5 _ htag =>
    rw [htag]
    exact Guides.skip_u8.bind fun _ => .pure rfl
  case h_6 _ htag | h_7 _ htag | h_13 _ htag | h_16 _ htag | h_17 _ htag =>
    rw [htag]
    exact Guides.skip_u2.bind fun _ => .pure rfl
  case h_8 _ htag | h_9 _ htag | h_10 _ htag | h_11 _ htag | h_14 _ htag | h_15 _ htag =>
    rw [htag]
    exact indexPair_guided fun _ _ => rfl
  case h_12 _ htag =>
    rw [htag]
    exact Guides.skip_u1.bind fun _ => Guides.skip_u2.bind fun _ => .pure rfl
  case h_18 => exact .reject _ _ _

/-- A constant is guided by the outline of one, which tells whether it is wide. -/
theorem constant_guided (index : UInt16) :
    Guides limit Outline.constant (PoolReader.constant index) Constant.isWide :=
  Guides.u1.bind fun tag => tagged_guided tag index

/-- The outline of the constants goes on behind a first one, over one slot or two. -/
theorem constants_succ (slots : Nat) : constants (slots + 1) = (do
    let isWide ← Outline.constant
    if isWide then
      match slots with
      | 0 => pure ()
      | slots + 1 => constants slots
    else constants slots) := by
  cases slots with
  | zero => rfl
  | succ slots => rfl

/-- A wide constant takes two slots at once, so that the induction reaches back by two. -/
theorem slotsBehind_guided (missing : Nat) (filled : Array PoolSlot) :
    Guides limit (constants missing) (slotsBehind missing filled) unseen := by
  induction missing using Nat.strong_induction_on generalizing filled with
  | h missing ih =>
    cases missing with
    | zero => exact Guides.pure rfl
    | succ missing =>
      rw [slotsBehind_succ, constants_succ]
      refine (constant_guided _).bind fun entry => ?_
      split
      · cases missing with
        | zero => exact .reject _ _ _
        | succ missing => exact ih missing (by omega) _
      · exact ih missing (by omega) _

end

/-! ## Attributes and members -/

section

open AttributeReader

variable {pool : ConstantPool}

/-- The content of an attribute is taken as a whole, and read on its own behind that. -/
theorem single_guided (nested : Reader (List Attribute)) :
    Guides limit (do
      skip .attributeHeader 2
      let length ← number .attributeHeader 4
      skip .attributeContent length) (single pool nested) unseen := by
  refine Guides.skip_u2.bind fun nameIndex => Guides.u4.bind fun length => ?_
  refine Guides.checked_bind fun name => (Guides.skip_take length.toNat).bind_last fun content => ?_
  split
  · exact .pure rfl
  · exact .checked _

/-- The limit of the attributes is at least the number of bytes at hand. -/
theorem attributes_guided (pool : ConstantPool) (limit : Nat) :
    Guides limit Outline.attributes (AttributeReader.attributes pool limit) unseen := by
  cases limit with
  | zero =>
    constructor
    · intro input value rest _ hread
      cases hread
    · intro input fault remaining hlimit hread
      obtain rfl := List.length_eq_zero_iff.1 (Nat.le_zero.1 hlimit)
      cases hread
      exact ⟨rfl, Nat.le_refl _, .attributeHeader, rfl⟩
  | succ limit => exact (single_guided _).counted

/-- Fields and methods are read in the same way. -/
theorem member_guided {τ μ : Type} (typeAt : UInt16 → UInt16 → Except DecodeError τ)
    (build : UInt16 → String → τ → List Attribute → μ) (pool : ConstantPool) :
    Guides limit member (do
      let flags ← Reader.u2
      let nameIndex ← Reader.u2
      let typeIndex ← Reader.u2
      let values ← AttributeReader.attributes pool limit
      let name ← checked (pool.utf8 nameIndex)
      let type ← checked (typeAt flags typeIndex)
      return build flags name type values : Reader μ) unseen := by
  refine Guides.skip_u2.bind fun flags => Guides.skip_u2.bind fun nameIndex => ?_
  refine Guides.skip_u2.bind fun typeIndex => ?_
  refine (attributes_guided pool limit).bind_last fun values => ?_
  exact Guides.checked_bind fun name => Guides.checked_bind fun type => .pure rfl

theorem readField_guided (pool : ConstantPool) :
    Guides limit member (readField pool limit) unseen :=
  member_guided (fun _ index => fieldTypeAt pool index) Field.mk pool

theorem readMethod_guided (pool : ConstantPool) :
    Guides limit member (readMethod pool limit) unseen :=
  member_guided (methodTypeAt pool) Method.mk pool

/-- The check for trailing bytes walks over nothing. -/
theorem endOfFile_guided : Guides limit (pure ()) endOfFile unseen where
  value := by
    intro input value rest _ hread
    obtain ⟨rfl, rfl⟩ := endOfFile_eq_ok_iff.1 hread
    exact ⟨rfl, Nat.le_refl _⟩
  fault := by
    intro input fault remaining _ hread
    cases input with
    | nil => cases hread
    | cons first rest => cases hread

/-- The constant pool is guided by its outline. -/
theorem pool_guided : Guides limit Outline.pool PoolReader.pool unseen := by
  refine Guides.u2.bind fun count => ?_
  split
  · exact .reject _ _ _
  · refine (slotsBehind_guided _ _).bind_last fun slots => ?_
    exact Guides.checked_bind fun _ => .pure rfl

theorem readVersion_guided : Guides limit version readVersion unseen := by
  refine Guides.skip_u4.bind fun found => ?_
  split
  · exact .reject _ _ _
  · refine Guides.skip_u2.bind fun minor => Guides.skip_u2.bind_last fun major => ?_
    split
    · exact .pure rfl
    · exact .reject _ _ _

theorem readInterfaces_guided (pool : ConstantPool) :
    Guides limit (counted .classHeader (skip .classHeader 2)) (readInterfaces pool) unseen :=
  Guides.skip_u2.counted.bind_last fun _ => .checked _

/-- A whole class file is read along its outline. -/
theorem readClass_guided (limit : Nat) : Guides limit classFile (readClass limit) unseen := by
  refine readVersion_guided.bind fun version => pool_guided.bind fun pool => ?_
  refine Guides.skip_u2.bind fun flags => Guides.skip_u2.bind fun nameIndex => ?_
  refine Guides.skip_u2.bind fun superIndex => (readInterfaces_guided pool).bind fun names => ?_
  refine (readField_guided pool).counted.bind fun fields => ?_
  refine (readMethod_guided pool).counted.bind fun methods => ?_
  refine (attributes_guided pool limit).bind_last fun values => ?_
  refine endOfFile_guided.bind_last fun _ => Guides.checked_bind fun name => ?_
  split
  · exact .pure rfl
  · exact ((Guides.checked _).map some).bind_last fun _ => .pure rfl

end

end Outline

end ClassAtlas
