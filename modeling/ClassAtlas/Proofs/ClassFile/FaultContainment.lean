import ClassAtlas.Proofs.ClassFile.Outline

/-!
# Faults inside attributes

A fault inside the content of a known attribute stays inside: whatever is wrong with
the shape of the content, at any depth of method bodies within method bodies, is
reported as a wrong length of the innermost attribute around it. So decoding tells an
offset only where the file ends inside a field of its outline, and never calls a file
malformed.
-/

namespace ClassAtlas

namespace Reader

variable {α : Type} {item : Reader α} {input rest : Bytes} {fault : Fault}

/-- Reading items behind their number comes to the item with which `rest` starts: those in front
of it are read, and they are not all. -/
def ItemReached (item : Reader α) (input rest : Bytes) : Prop :=
  ∃ (count : UInt16) (first : Bytes) (before : List α), u2 input = .ok (count, first)
    ∧ before.length < count.toNat ∧ repeated before.length item first = .ok (before, rest)

/-- A fault of an item that is come to is that of the items. -/
theorem ItemReached.counted_of_error (h : ItemReached item input rest)
    (hfault : item rest = .error fault) : counted item input = .error fault := by
  obtain ⟨count, first, before, hcount, hlt, hbefore⟩ := h
  obtain ⟨left, hleft⟩ := Nat.exists_eq_add_of_lt hlt
  have hitems : repeated (left + 1) item rest = .error fault := by
    rw [repeated_succ, bind_of_error hfault]
  rw [counted, bind_of_ok hcount, hleft, Nat.add_assoc, repeated_add, bind_of_ok hbefore,
    map_of_error hitems]

end Reader

open Reader

namespace AttributeReader

variable {pool : ConstantPool}

/-! ## Element values that are come to -/

/-- The bytes that stand in front of the element values. -/
def elementTags : List UInt8 :=
  (['e', 'c', '@', '[', 's'] ++ numberTags).map tagByte

/-- The type of an annotation, in front of its elements. -/
def annotationHead (pool : ConstantPool) : Reader Unit := do
  let typeIndex ← u2
  let _ ← checked (fieldTypeAt pool typeIndex)

/-- The name of an element, in front of its value. -/
def elementHead (pool : ConstantPool) : Reader Unit := do
  let nameIndex ← u2
  let _ ← checked (pool.utf8 nameIndex)

/-- An element of an annotation. -/
def namedElement (pool : ConstantPool) (element : Reader ElementValue) :
    Reader (String × ElementValue) := do
  let nameIndex ← u2
  let name ← checked (pool.utf8 nameIndex)
  let value ← element
  return (name, value)

/-- Reading an annotation comes to one of its element values. -/
def ValueReached (pool : ConstantPool) (room : Nat) (input rest : Bytes) : Prop :=
  ∃ elements element, annotationHead pool input = .ok ((), elements)
    ∧ ItemReached (namedElement pool (elementValue pool room)) elements element
    ∧ elementHead pool element = .ok ((), rest)

/-- Reading an element value that may hold `room` levels comes to the one with which `rest`
starts, where `left` levels are left. -/
inductive ElementReached (pool : ConstantPool) :
    (room : Nat) → (input : Bytes) → (left : Nat) → (rest : Bytes) → Prop where
  | itself (room : Nat) (input : Bytes) : ElementReached pool room input room input
  | nested {room left : Nat} {input value rest : Bytes}
      (hvalue : ValueReached pool room input value)
      (hrest : ElementReached pool room value left rest) :
      ElementReached pool (room + 1) (tagByte '@' :: input) left rest
  | array {room left : Nat} {input value rest : Bytes}
      (hvalue : ItemReached (elementValue pool room) input value)
      (hrest : ElementReached pool room value left rest) :
      ElementReached pool (room + 1) (tagByte '[' :: input) left rest

/-- Reading the annotations of a class, field or method comes to an element value. -/
def AnnotationsReach (pool : ConstantPool) (content : Bytes) (left : Nat) (rest : Bytes) : Prop :=
  ∃ applied value, ItemReached (outermostValue pool) content applied
    ∧ ValueReached pool maxElementDepth applied value
    ∧ ElementReached pool maxElementDepth value left rest

/-- A fault of a value that is come to is that of the annotation. -/
theorem ValueReached.annotationOf_of_error {room : Nat} {input rest : Bytes} {fault : Fault}
    (h : ValueReached pool room input rest) (hfault : elementValue pool room rest = .error fault) :
    annotationOf pool (elementValue pool room) input = .error fault := by
  obtain ⟨elements, element, hhead, helement, hname⟩ := h
  have hnamed : namedElement pool (elementValue pool room) element = .error fault := by
    unfold elementHead at hname
    obtain ⟨nameIndex, _, hnameIndex, hname⟩ := bind_eq_ok_iff.1 hname
    obtain ⟨name, _, hchecked, hname⟩ := bind_eq_ok_iff.1 hname
    obtain ⟨-, rfl⟩ := pure_eq_ok_iff.1 hname
    unfold namedElement
    rw [bind_of_ok hnameIndex, bind_of_ok hchecked, bind_of_error hfault]
  unfold annotationHead at hhead
  obtain ⟨typeIndex, _, htypeIndex, hhead⟩ := bind_eq_ok_iff.1 hhead
  obtain ⟨type, _, htype, hhead⟩ := bind_eq_ok_iff.1 hhead
  obtain ⟨-, rfl⟩ := pure_eq_ok_iff.1 hhead
  unfold annotationOf
  rw [bind_of_ok htypeIndex, bind_of_ok htype]
  exact bind_of_error (helement.counted_of_error hnamed)

/-- A fault of an element value that is come to is that of the outermost one. The induction is on
the way to it. -/
theorem ElementReached.elementValue_of_error {room left : Nat} {input rest : Bytes} {fault : Fault}
    (h : ElementReached pool room input left rest)
    (hfault : elementValue pool left rest = .error fault) :
    elementValue pool room input = .error fault := by
  induction h with
  | itself => exact hfault
  | @nested room left input value rest hvalue hrest ih =>
    have htag : u1 (tagByte '@' :: input) = .ok (tagByte '@', input) := rfl
    rw [elementValue, bind_of_ok htag]
    exact bind_of_error (hvalue.annotationOf_of_error (ih hfault))
  | @array room left input value rest hvalue hrest ih =>
    have htag : u1 (tagByte '[' :: input) = .ok (tagByte '[', input) := rfl
    rw [elementValue, bind_of_ok htag]
    exact bind_of_error (hvalue.counted_of_error (ih hfault))

/-- A fault of an element value that is come to is that of the annotations. -/
theorem AnnotationsReach.counted_of_error {content rest : Bytes} {left : Nat} {fault : Fault}
    (h : AnnotationsReach pool content left rest)
    (hfault : elementValue pool left rest = .error fault) :
    counted (outermostValue pool) content = .error fault := by
  obtain ⟨applied, value, hitem, hvalue, hrest⟩ := h
  exact hitem.counted_of_error (hvalue.annotationOf_of_error (hrest.elementValue_of_error hfault))

/-- Another byte than the tags has no meaning. -/
theorem elementValue_of_unknown_tag {tag : UInt8} (h : tag ∉ elementTags) (room : Nat)
    (rest : Bytes) : elementValue pool (room + 1) (tag :: rest)
      = .error (.shape .unknownElementTag rest.length) := by
  have htag : u1 (tag :: rest) = .ok (tag, rest) := rfl
  rw [elementValue, bind_of_ok htag]
  have hne : ∀ known ∈ ['e', 'c', '@', '[', 's'] ++ numberTags, Char.ofNat tag.toNat ≠ known := by
    intro known hknown hread
    exact h (eq_tagByte hread ▸ List.mem_map_of_mem hknown)
  refine congrFun (?_ : _ = misshapen .unknownElementTag) rest
  split
  case h_14 => rfl
  all_goals exact absurd ‹_› (hne _ (by decide))

/-! ## Attributes that are come to -/

/-- The content of a known attribute does not have the shape that its reader takes. -/
inductive Misfits (pool : ConstantPool) : (name : String) → (content : Bytes) → Prop where
  /-- The reader stops for the shape of the bytes, of which there may be too few. -/
  | stops {name : String} {content : Bytes} {reader : Reader Attribute} {fault : ShapeFault}
      {remaining : Nat} (hknown : knownContent? pool (attributeList pool) name = some reader)
      (hread : reader content = .error (.shape fault remaining)) : Misfits pool name content
  /-- The reader leaves bytes over. -/
  | leaves {name : String} {content left : Bytes} {reader : Reader Attribute} {value : Attribute}
      (hknown : knownContent? pool (attributeList pool) name = some reader)
      (hread : reader content = .ok (value, left)) (hleft : left ≠ []) : Misfits pool name content
  /-- An element value has a tag without meaning. -/
  | unknownTag {content behind : Bytes} {left : Nat} {tag : UInt8}
      (hreach : AnnotationsReach pool content (left + 1) (tag :: behind))
      (htag : tag ∉ elementTags) : Misfits pool "RuntimeVisibleAnnotations" content
  /-- An element value lies too deep. -/
  | tooDeep {content behind : Bytes} (hreach : AnnotationsReach pool content 0 behind) :
      Misfits pool "RuntimeVisibleAnnotations" content

/-- An attribute of a name with a declared length, and a content of this length. -/
def StartsWith (pool : ConstantPool) (name : String) (length : UInt32) (content input : Bytes) :
    Prop :=
  ∃ index behind, pool.utf8 index = .ok name ∧ content.length = length.toNat
    ∧ input = u2Bytes index ++ (u4Bytes length ++ (content ++ behind))

/-- What stands in front of the attributes of a method body. -/
def bodyHead (pool : ConstantPool) : Reader Unit := do
  let _ ← u2
  let _ ← u2
  let codeLength ← u4
  let _ ← take codeLength.toNat
  let _ ← counted (exceptionHandler pool)

/-- Reading a list of attributes comes to the attribute with which `rest` starts, in the list
itself or in a method body at any depth. -/
inductive ComesTo (pool : ConstantPool) : (list rest : Bytes) → Prop where
  /-- It is in the list itself. -/
  | next {list rest : Bytes} (hitem : ItemReached (nextAttribute pool) list rest) :
      ComesTo pool list rest
  /-- It is in the list of a method body that is come to. -/
  | inside {length : UInt32} {list outer content inner rest : Bytes}
      (houter : ComesTo pool list outer) (hbody : StartsWith pool "Code" length content outer)
      (hhead : bodyHead pool content = .ok ((), inner)) (hinner : ComesTo pool inner rest) :
      ComesTo pool list rest

variable {name : String} {length : UInt32} {content input : Bytes} {error : DecodeError}

/-- Whatever is wrong with the shape of a content comes to the same error. -/
theorem Misfits.wholeContent_eq (h : Misfits pool name content) (mismatch : DecodeError) :
    ∃ reader, knownContent? pool (attributeList pool) name = some reader
      ∧ wholeContent reader mismatch content = .error mismatch := by
  have hstops : ∀ {reader : Reader Attribute} {fault : ShapeFault} {remaining : Nat},
      reader content = .error (.shape fault remaining) →
        wholeContent reader mismatch content = .error mismatch := by
    intro reader fault remaining hread
    rw [wholeContent, hread]
  cases h with
  | stops hknown hread => exact ⟨_, hknown, hstops hread⟩
  | @leaves _ _ left reader value hknown hread hleft =>
    obtain ⟨first, rest, rfl⟩ := List.exists_cons_of_ne_nil hleft
    exact ⟨reader, hknown, by rw [wholeContent, hread]⟩
  | unknownTag hreach htag =>
    have hread := hreach.counted_of_error (elementValue_of_unknown_tag htag _ _)
    exact ⟨_, rfl, hstops (map_of_error hread)⟩
  | tooDeep hreach => exact ⟨_, rfl, hstops (map_of_error (hreach.counted_of_error rfl))⟩

/-- An error from the content of a known attribute is that of the attribute. -/
theorem nextAttribute_of_error {reader : Reader Attribute}
    (hstarts : StartsWith pool name length content input)
    (hknown : knownContent? pool (attributeList pool) name = some reader)
    (herror : wholeContent reader (.attributeLength name length) content = .error error) :
    nextAttribute pool input = .error (.rejected error) := by
  obtain ⟨index, behind, hname, hlength, rfl⟩ := hstarts
  have hu4 : u4 (u4Bytes length ++ (content ++ behind)) = .ok (length, content ++ behind) :=
    u4_eq_ok_iff.2 rfl
  have htake : take length.toNat (content ++ behind) = .ok (content, behind) :=
    take_eq_ok_iff.2 ⟨hlength, rfl⟩
  have hchecked : checked (pool.utf8 index) (content ++ behind) = .ok (name, content ++ behind) :=
    checked_eq_ok_iff.2 ⟨hname, rfl⟩
  unfold nextAttribute single
  rw [bind_of_ok (u2_append index _), bind_of_ok hu4, bind_of_ok hchecked, bind_of_ok htake]
  simp only [hknown, herror]
  rfl

/-- The attributes of a method body are read behind its head. -/
theorem codeBody_of_error {nested : Reader (List Attribute)} {inner : Bytes} {fault : Fault}
    (hhead : bodyHead pool content = .ok ((), inner)) (hnested : nested inner = .error fault) :
    codeBody pool nested content = .error fault := by
  unfold bodyHead at hhead
  obtain ⟨maxStack, _, hmaxStack, hhead⟩ := bind_eq_ok_iff.1 hhead
  obtain ⟨maxLocals, _, hmaxLocals, hhead⟩ := bind_eq_ok_iff.1 hhead
  obtain ⟨codeLength, _, hcodeLength, hhead⟩ := bind_eq_ok_iff.1 hhead
  obtain ⟨code, _, hcode, hhead⟩ := bind_eq_ok_iff.1 hhead
  obtain ⟨handlers, _, hhandlers, hhead⟩ := bind_eq_ok_iff.1 hhead
  obtain ⟨-, rfl⟩ := pure_eq_ok_iff.1 hhead
  unfold codeBody
  rw [bind_of_ok hmaxStack, bind_of_ok hmaxLocals, bind_of_ok hcodeLength, bind_of_ok hcode,
    bind_of_ok hhandlers, bind_of_error hnested]

/-- The error of an attribute that is come to is that of the list: it passes through the bodies
around the attribute as it is. The induction is on the way to the attribute. -/
theorem ComesTo.attributeList_of_error {list rest : Bytes} (h : ComesTo pool list rest)
    (herror : nextAttribute pool rest = .error (.rejected error)) :
    attributeList pool list = .error (.rejected error) := by
  induction h with
  | next hitem =>
    rw [attributeList_eq_counted]
    exact hitem.counted_of_error herror
  | @inside length list outer content inner rest houter hbody hhead hinner ihouter ihinner =>
    have hcode : codeBody pool (attributeList pool) content = .error (.rejected error) :=
      codeBody_of_error hhead (ihinner herror)
    have hreader : (Attribute.code <$> codeBody pool (attributeList pool)) content
        = .error (.rejected error) := map_of_error hcode
    exact ihouter (nextAttribute_of_error hbody rfl (by rw [wholeContent, hreader]))

end AttributeReader

/-! ## Lists that are come to -/

open AttributeReader

/-- A class file up to its interfaces, of which the constants are kept. -/
def classHead : Reader ConstantPool := do
  let _ ← readVersion
  let pool ← PoolReader.pool
  let _ ← u2
  let _ ← u2
  let _ ← u2
  let _ ← readInterfaces pool
  return pool

/-- Flags, name and type of a field or a method. -/
def memberHead : Reader Unit := do
  let _ ← u2
  let _ ← u2
  let _ ← u2

/-- Decoding comes to the list of attributes of a field, of a method or of the class. -/
inductive ListReached (bytes : Bytes) (pool : ConstantPool) : (list : Bytes) → Prop where
  /-- The fields in front of a field are read. -/
  | ofField {behind next list : Bytes} (hhead : classHead bytes = .ok (pool, behind))
      (hitem : ItemReached (readField pool bytes.length) behind next)
      (hmember : memberHead next = .ok ((), list)) : ListReached bytes pool list
  /-- All fields, and the methods in front of a method are read. -/
  | ofMethod {behind middle next list : Bytes} {fields : List Field}
      (hhead : classHead bytes = .ok (pool, behind))
      (hfields : counted (readField pool bytes.length) behind = .ok (fields, middle))
      (hitem : ItemReached (readMethod pool bytes.length) middle next)
      (hmember : memberHead next = .ok ((), list)) : ListReached bytes pool list
  /-- All members are read. -/
  | ofClass {behind middle list : Bytes} {fields : List Field} {methods : List Method}
      (hhead : classHead bytes = .ok (pool, behind))
      (hfields : counted (readField pool bytes.length) behind = .ok (fields, middle))
      (hmethods : counted (readMethod pool bytes.length) middle = .ok (methods, list)) :
      ListReached bytes pool list

section

variable {short long : Nat}

theorem classHead_continued : Continued short long classHead classHead := by
  apply readVersion_continued.bind
  intro version
  apply PoolReader.pool_continued.bind
  intro pool
  apply Continued.u2.bind
  intro flags
  apply Continued.u2.bind
  intro nameIndex
  apply Continued.u2.bind
  intro superIndex
  exact (readInterfaces_continued pool).bind fun _ => .pure pool

theorem memberHead_continued : Continued short long memberHead memberHead :=
  Continued.u2.bind fun _ => Continued.u2.bind fun _ => Continued.u2.bind fun _ => .pure ()

end

variable {bytes list : Bytes} {pool : ConstantPool}

/-- The bytes of a list are no more than those of the file. -/
theorem ListReached.length_le (h : ListReached bytes pool list) : list.length ≤ bytes.length := by
  have hread : ∀ {α : Type} {reader : Reader α} {input rest : Bytes} {value : α},
      Continued bytes.length bytes.length reader reader → input.length ≤ bytes.length →
      reader input = .ok (value, rest) → rest.length ≤ bytes.length :=
    fun hreader hle hok => (hreader.length_rest_le hle hle hok).trans hle
  have hreach : ∀ {α : Type} {item : Reader α} {input rest : Bytes},
      Continued bytes.length bytes.length item item → input.length ≤ bytes.length →
      ItemReached item input rest → rest.length ≤ bytes.length := by
    rintro α item input rest hitem hle ⟨count, first, before, hcount, -, hbefore⟩
    exact hread (hitem.repeated _) (hread Continued.u2 hle hcount) hbefore
  cases h with
  | ofField hhead hitem hmember =>
    have hbehind := hread classHead_continued (Nat.le_refl _) hhead
    have hnext := hreach (readField_continued pool) hbehind hitem
    exact hread memberHead_continued hnext hmember
  | ofMethod hhead hfields hitem hmember =>
    have hbehind := hread classHead_continued (Nat.le_refl _) hhead
    have hmiddle := hread (readField_continued pool).counted hbehind hfields
    have hnext := hreach (readMethod_continued pool) hmiddle hitem
    exact hread memberHead_continued hnext hmember
  | ofClass hhead hfields hmethods =>
    have hbehind := hread classHead_continued (Nat.le_refl _) hhead
    have hmiddle := hread (readField_continued pool).counted hbehind hfields
    exact hread (readMethod_continued pool).counted hmiddle hmethods

/-- Fields and methods are read in the same way: an error of their attributes is their own. -/
theorem member_of_error {τ μ : Type} (typeAt : UInt16 → UInt16 → Except DecodeError τ)
    (build : UInt16 → String → τ → List Attribute → μ) {limit : Nat} {next : Bytes} {fault : Fault}
    (hmember : memberHead next = .ok ((), list))
    (hfault : AttributeReader.attributes pool limit list = .error fault) :
    (do
      let flags ← u2
      let nameIndex ← u2
      let typeIndex ← u2
      let values ← AttributeReader.attributes pool limit
      let name ← checked (pool.utf8 nameIndex)
      let type ← checked (typeAt flags typeIndex)
      return build flags name type values : Reader μ) next = .error fault := by
  unfold memberHead at hmember
  obtain ⟨flags, _, hflags, hmember⟩ := bind_eq_ok_iff.1 hmember
  obtain ⟨nameIndex, _, hname, hmember⟩ := bind_eq_ok_iff.1 hmember
  obtain ⟨typeIndex, _, htype, hmember⟩ := bind_eq_ok_iff.1 hmember
  obtain ⟨-, rfl⟩ := pure_eq_ok_iff.1 hmember
  rw [bind_of_ok hflags, bind_of_ok hname, bind_of_ok htype, bind_of_error hfault]

/-- Behind its head a class file is its fields, its methods, its attributes and further checks. -/
theorem readClass_of_classHead {behind : Bytes} (limit : Nat)
    (h : classHead bytes = .ok (pool, behind)) :
    ∃ checks : List Field → List Method → List Attribute → Reader ClassDescription,
      readClass limit bytes = (do
        let fields ← counted (readField pool limit)
        let methods ← counted (readMethod pool limit)
        let values ← AttributeReader.attributes pool limit
        checks fields methods values) behind := by
  unfold classHead at h
  obtain ⟨⟨minor, major⟩, _, hversion, h⟩ := bind_eq_ok_iff.1 h
  obtain ⟨found, _, hpool, h⟩ := bind_eq_ok_iff.1 h
  obtain ⟨flags, _, hflags, h⟩ := bind_eq_ok_iff.1 h
  obtain ⟨nameIndex, _, hname, h⟩ := bind_eq_ok_iff.1 h
  obtain ⟨superIndex, _, hsuper, h⟩ := bind_eq_ok_iff.1 h
  obtain ⟨names, _, hnames, h⟩ := bind_eq_ok_iff.1 h
  obtain ⟨rfl, rfl⟩ := pure_eq_ok_iff.1 h
  unfold readClass
  rw [bind_of_ok hversion]
  dsimp only
  rw [bind_of_ok hpool, bind_of_ok hflags, bind_of_ok hname, bind_of_ok hsuper,
    bind_of_ok hnames]
  exact ⟨_, rfl⟩

/-- The error of a list that is come to is that of the file. -/
theorem ListReached.decode_of_error {error : DecodeError} (h : ListReached bytes pool list)
    (herror : attributeList pool list = .error (.rejected error)) :
    decode bytes = .error error := by
  rw [← attributes_eq_attributeList h.length_le] at herror
  have hread : readClass bytes.length bytes = .error (.rejected error) := by
    cases h with
    | ofField hhead hitem hmember =>
      obtain ⟨checks, hchecks⟩ := readClass_of_classHead bytes.length hhead
      have hfield := member_of_error (fun _ index => fieldTypeAt pool index) Field.mk hmember herror
      rw [hchecks, bind_of_error (hitem.counted_of_error hfield)]
    | ofMethod hhead hfields hitem hmember =>
      obtain ⟨checks, hchecks⟩ := readClass_of_classHead bytes.length hhead
      have hmethod := member_of_error (methodTypeAt pool) Method.mk hmember herror
      rw [hchecks, bind_of_ok hfields, bind_of_error (hitem.counted_of_error hmethod)]
    | ofClass hhead hfields hmethods =>
      obtain ⟨checks, hchecks⟩ := readClass_of_classHead bytes.length hhead
      rw [hchecks, bind_of_ok hfields, bind_of_ok hmethods, bind_of_error herror]
  rw [decode, hread]

/-! ## What decoding tells of faults -/

/-- How decoding reports bytes of the wrong shape. -/
structure FaultsContained (bytes : Bytes) : Prop where
  /-- No file is called malformed. -/
  never_malformed : ∀ offset fault, decode bytes ≠ .error (.malformed offset fault)
  /-- A file is called truncated at a field of its outline, within the file. -/
  truncated_outside : ∀ offset, decode bytes = .error (.truncated offset) →
    offset ≤ bytes.length
      ∧ ∃ region, Outline.classFile bytes = .error (region, bytes.length - offset)
  /-- A content of the wrong shape, at any depth, is a wrong length of its attribute. -/
  misfit_reported : ∀ pool list rest name length content, ListReached bytes pool list →
    ComesTo pool list rest → StartsWith pool name length content rest →
    Misfits pool name content → decode bytes = .error (.attributeLength name length)

/-- A rejection tells no offset. -/
theorem readClass_rejected_unlocated {error : DecodeError}
    (h : readClass bytes.length bytes = .error (.rejected error)) : error.isLocated = false := by
  -- Any longer input will do: what follows a rejection does not matter here.
  have hcloses := (readClass_closed bytes.length (bytes ++ [0]).length).closes bytes [0] (by simp)
    (Nat.le_refl _) (Nat.le_refl _)
  rw [h] at hcloses
  cases hcloses with
  | definite hdefinite _ => exact hdefinite

/-- No file is called malformed: a fault of shape that reaches the outside is an end of the input.
-/
theorem decode_ne_malformed (bytes : Bytes) (offset : Nat) (fault : ShapeFault) :
    decode bytes ≠ .error (.malformed offset fault) := by
  intro h
  unfold decode at h
  split at h
  · cases h
  · next error hread =>
    cases h
    cases readClass_rejected_unlocated hread
  · cases h
  · next found remaining hother hread =>
    have hend := (Outline.readClass_guided bytes.length).fault bytes found remaining
      (Nat.le_refl _) hread
    exact hother hend.1

/-- A file is called truncated where its outline stops, at a field outside the contents of
attributes. -/
theorem decode_truncated_outside {offset : Nat} (h : decode bytes = .error (.truncated offset)) :
    offset ≤ bytes.length
      ∧ ∃ region, Outline.classFile bytes = .error (region, bytes.length - offset) := by
  obtain ⟨remaining, hread, rfl⟩ := exists_remaining h
  obtain ⟨-, hremaining, region, houtline⟩ :=
    (Outline.readClass_guided bytes.length).fault bytes .endOfInput remaining (Nat.le_refl _) hread
  have hleft : bytes.length - (bytes.length - remaining) = remaining := by omega
  exact ⟨Nat.sub_le _ _, region, by rw [hleft, houtline]⟩

/-- For every byte string: decoding never calls it malformed, calls it truncated only at a field
outside the contents of attributes, and reports a content of the wrong shape, whatever is wrong
with it and however deep the attribute lies, as a wrong length of the attribute. -/
theorem decode_contains_faults (bytes : Bytes) : FaultsContained bytes where
  never_malformed := decode_ne_malformed bytes
  truncated_outside _ := decode_truncated_outside
  misfit_reported := by
    intro pool list rest name length content hlist hcomes hstarts hmisfits
    obtain ⟨reader, hknown, herror⟩ := hmisfits.wholeContent_eq (.attributeLength name length)
    have hattribute := nextAttribute_of_error hstarts hknown herror
    exact hlist.decode_of_error (hcomes.attributeList_of_error hattribute)

/-- The constants of a class `A` with a method `A()V`. -/
def markedPool : ConstantPool :=
  ⟨#[.usable (.utf8 "A"), .usable (.classEntry 1), .usable (.utf8 "Code"),
    .usable (.utf8 "Deprecated"), .usable (.utf8 "()V")]⟩

/-- The body of the method: one instruction and two markers, the second with a byte in it. -/
def markedBody : Bytes :=
  [0x00, 0x00, 0x00, 0x00, 0x00, 0x00, 0x00, 0x01, 0xB1, 0x00, 0x00, 0x00, 0x02, 0x00, 0x04, 0x00,
    0x00, 0x00, 0x00, 0x00, 0x04, 0x00, 0x00, 0x00, 0x01, 0xFF]

/-- The file of the class. -/
def markedFile : Bytes :=
  [0xCA, 0xFE, 0xBA, 0xBE, 0x00, 0x00, 0x00, 0x34, 0x00, 0x06, 0x01, 0x00, 0x01, 0x41, 0x07, 0x00,
    0x01, 0x01, 0x00, 0x04, 0x43, 0x6F, 0x64, 0x65, 0x01, 0x00, 0x0A, 0x44, 0x65, 0x70, 0x72, 0x65,
    0x63, 0x61, 0x74, 0x65, 0x64, 0x01, 0x00, 0x03, 0x28, 0x29, 0x56, 0x00, 0x21, 0x00, 0x02, 0x00,
    0x00, 0x00, 0x00, 0x00, 0x00, 0x00, 0x01, 0x00, 0x01, 0x00, 0x01, 0x00, 0x05, 0x00, 0x01, 0x00,
    0x03, 0x00, 0x00, 0x00, 0x1A] ++ markedBody ++ [0x00, 0x00]

/-- Decoding comes to the attributes of the method. -/
theorem listReached_markedFile : ListReached markedFile markedPool (markedFile.drop 61) := by
  have hhead : classHead markedFile = .ok (markedPool, markedFile.drop 51) := by decide +kernel
  have hfields : counted (readField markedPool markedFile.length) (markedFile.drop 51)
      = .ok ([], markedFile.drop 53) := rfl
  have hitem : ItemReached (readMethod markedPool markedFile.length) (markedFile.drop 53)
      (markedFile.drop 55) := ⟨1, _, [], rfl, by decide, rfl⟩
  exact .ofMethod hhead hfields hitem rfl

/-- Behind the first marker in the body, reading comes to the second one. -/
theorem comesTo_markedFile :
    ComesTo markedPool (markedFile.drop 61) (markedBody.drop 19) := by
  have hbody : ItemReached (nextAttribute markedPool) (markedFile.drop 61) (markedFile.drop 63) :=
    ⟨1, _, [], rfl, by decide, rfl⟩
  have hname : markedPool.utf8 3 = .ok "Code" := rfl
  have hstarts : StartsWith markedPool "Code" 26 markedBody (markedFile.drop 63) :=
    ⟨3, [0x00, 0x00], hname, rfl, rfl⟩
  have hhead : bodyHead markedPool markedBody = .ok ((), markedBody.drop 11) := rfl
  have hmarker : nextAttribute markedPool (markedBody.drop 13)
      = .ok (.deprecated, markedBody.drop 19) := rfl
  refine .inside (.next hbody) hstarts hhead (.next ?_)
  refine ⟨2, markedBody.drop 13, [.deprecated], rfl, by decide, ?_⟩
  rw [List.length_singleton, repeated_succ, bind_of_ok hmarker]
  rfl

/-- The byte in the second marker is reported as a wrong length of this marker, although it stands
in the body of a method; the file is neither malformed nor truncated. -/
theorem marked_file_contains_fault :
    ListReached markedFile markedPool (markedFile.drop 61)
      ∧ ComesTo markedPool (markedFile.drop 61) (markedBody.drop 19)
      ∧ StartsWith markedPool "Deprecated" 1 [0xFF] (markedBody.drop 19)
      ∧ Misfits markedPool "Deprecated" [0xFF]
      ∧ decode markedFile = .error (.attributeLength "Deprecated" 1) := by
  have hname : markedPool.utf8 4 = .ok "Deprecated" := rfl
  have hstarts : StartsWith markedPool "Deprecated" 1 [0xFF] (markedBody.drop 19) :=
    ⟨4, [], hname, rfl, rfl⟩
  have hmisfits : Misfits markedPool "Deprecated" [0xFF] := .leaves rfl rfl (by decide)
  exact ⟨listReached_markedFile, comesTo_markedFile, hstarts, hmisfits,
    (decode_contains_faults markedFile).misfit_reported markedPool (markedFile.drop 61)
      (markedBody.drop 19) "Deprecated" 1 [0xFF] listReached_markedFile comesTo_markedFile hstarts
      hmisfits⟩

end ClassAtlas
