import ClassAtlas.Proofs.Library.Ownership

/-!
# Asking for classes changes no answer

A class is decoded when it is asked for the first time, and the outcome is kept.
As long as the files stay the same, this changes what is kept and never what is
found: a request leaves behind an index in which every name leads to the same
class as before.
-/

namespace ClassAtlas

namespace Library

variable {tree : FileTree} {library : Library}

@[simp] theorem source_request (asked : String) :
    (library.request tree asked).source = library.source := by
  unfold request
  split <;> rfl

@[simp] theorem sourceLocation_request (asked : String) :
    (library.request tree asked).sourceLocation = library.sourceLocation := by
  unfold request
  split <;> rfl

@[simp] theorem readSlot_request (asked name : String) :
    (library.request tree asked).readSlot tree name = library.readSlot tree name := by
  unfold readSlot
  rw [source_request]

/-- A request fills the slot of the class that is asked for and no other. -/
theorem slot_request {asked : String} {number other : Nat}
    (hnumber : library.table.get? asked = some number) :
    (library.request tree asked).slot other
      = if other = number ∧ number < library.slots.size
        then library.settledSlot tree asked number else library.slot other := by
  unfold request slot
  rw [hnumber]
  simp only [Array.getElem?_setIfInBounds]
  by_cases heq : number = other
  · subst heq
    by_cases hlt : number < library.slots.size
    · simp [hlt]
    · simp [hlt]
  · simp [heq, Ne.symm heq]

/-- Settling a slot twice is the same as settling it once. -/
theorem settledSlot_request (h : library.Numbered) {asked name : String} {number : Nat}
    (hname : library.table.get? name = some number) :
    (library.request tree asked).settledSlot tree name number
      = library.settledSlot tree name number := by
  cases hasked : library.table.get? asked with
  | none =>
    rw [request, hasked]
  | some place =>
    by_cases hplace : number = place ∧ place < library.slots.size
    · obtain ⟨rfl, hlt⟩ := hplace
      obtain rfl := h.name_unique hasked hname
      unfold settledSlot
      rw [slot_request hasked, if_pos ⟨rfl, hlt⟩, readSlot_request, settledSlot]
      cases library.slot number with
      | unset =>
        cases library.readSlot tree asked <;> rfl
      | failed => rfl
      | loaded description => rfl
    · unfold settledSlot
      rw [slot_request hasked, if_neg hplace, readSlot_request]

/-- A request leaves every class what it was. -/
theorem class?_request (h : library.Numbered) (asked name : String) :
    (library.request tree asked).class? tree name = library.class? tree name := by
  unfold class?
  rw [table_request]
  cases hname : library.table.get? name with
  | none => rfl
  | some number => simp only [settledSlot_request h hname]

end Library

namespace LibraryIndex

/-- Two indices that serve the same classes and the same source files. -/
structure Alike (tree : FileTree) (first second : LibraryIndex) : Prop where
  /-- The same locations serve each class. -/
  owners_eq : first.owners = second.owners
  /-- The library of each location gives the same classes. -/
  classes_eq : ∀ key name, (first.libraryAt? key).map (·.class? tree name)
    = (second.libraryAt? key).map (·.class? tree name)
  /-- The library of each location has its source files at the same place. -/
  sources_eq : ∀ key, (first.libraryAt? key).map (·.sourceLocation)
    = (second.libraryAt? key).map (·.sourceLocation)

namespace Alike

variable {tree : FileTree} {first second third : LibraryIndex}

theorem refl (index : LibraryIndex) : Alike tree index index :=
  ⟨rfl, fun _ _ => rfl, fun _ => rfl⟩

theorem symm (h : Alike tree first second) : Alike tree second first :=
  ⟨h.owners_eq.symm, fun key name => (h.classes_eq key name).symm,
    fun key => (h.sources_eq key).symm⟩

theorem trans (h : Alike tree first second) (h' : Alike tree second third) :
    Alike tree first third :=
  ⟨h.owners_eq.trans h'.owners_eq, fun key name => (h.classes_eq key name).trans (h'.classes_eq key name),
    fun key => (h.sources_eq key).trans (h'.sources_eq key)⟩

/-- What depends on the serving library in the same way for each location is the same. -/
theorem map_owner? {γ : Type} {view : Library → γ} (h : Alike tree first second)
    (hview : ∀ key, (first.libraryAt? key).map view = (second.libraryAt? key).map view)
    (name : String) : (first.owner? name).map view = (second.owner? name).map view := by
  unfold owner?
  rw [h.owners_eq]
  cases second.owners.get? name with
  | none => rfl
  | some key => exact hview key

end Alike

/-- A look-up is a search for the first candidate that is served. -/
theorem lookupIn?_eq (tree : FileTree) (index : LibraryIndex) (name current : String)
    (defaults : List String) :
    index.lookupIn? tree name current defaults
      = ((candidateNames name current defaults).findSome? fun candidate =>
          (index.owner? candidate).map (·.class? tree candidate)).bind id := by
  unfold lookupIn? served?
  induction candidateNames name current defaults with
  | nil => rfl
  | cons candidate candidates ih =>
    rw [List.findSome?_cons, List.findSome?_cons]
    cases index.owner? candidate with
    | none => exact ih
    | some library => rfl

/-- Names are looked up alike. -/
theorem Alike.lookupIn?_eq {tree : FileTree} {first second : LibraryIndex}
    (h : Alike tree first second) (name current : String) (defaults : List String) :
    first.lookupIn? tree name current defaults = second.lookupIn? tree name current defaults := by
  rw [LibraryIndex.lookupIn?_eq, LibraryIndex.lookupIn?_eq]
  simp only [h.map_owner? fun key => h.classes_eq key _]

section Request

variable {index : LibraryIndex}

/-- A request reaches the library of its location and no other. -/
theorem libraryAt?_requestFrom (tree : FileTree) (key other : LocationKey) (asked : String) :
    (index.requestFrom tree key asked).libraryAt? other
      = (index.libraryAt? other).map fun library =>
        if library.key = key then library.request tree asked else library := by
  unfold libraryAt? requestFrom
  rw [List.find?_map]
  congr 2
  funext library
  simp only [Function.comp_apply]
  split
  · rw [Library.key_request]
  · rfl

/-- Asking a library for a class makes no difference to what the index finds. -/
theorem Coherent.alike_requestFrom (h : index.Coherent) (tree : FileTree) (key : LocationKey)
    (asked : String) : Alike tree index (index.requestFrom tree key asked) := by
  refine ⟨rfl, fun other name => ?_, fun other => ?_⟩
  · rw [libraryAt?_requestFrom, Option.map_map]
    refine Option.map_congr fun library hmem => ?_
    have hnumbered := h.libraries_numbered library (List.mem_of_find?_eq_some hmem)
    rw [Function.comp_apply]
    split
    · exact (Library.class?_request hnumbered asked name).symm
    · rfl
  · rw [libraryAt?_requestFrom, Option.map_map]
    refine Option.map_congr fun library _ => ?_
    rw [Function.comp_apply]
    split
    · exact (Library.sourceLocation_request asked).symm
    · rfl

/-- Looking a written name up makes no difference to what the index finds. -/
theorem Coherent.alike_requestIn (h : index.Coherent) (tree : FileTree) (name current : String)
    (defaults : List String) : Alike tree index (index.requestIn tree name current defaults) := by
  unfold LibraryIndex.requestIn
  split
  · exact h.alike_requestFrom tree _ _
  · exact Alike.refl index

/-- Names asked for one after the other leave a coherent index that is alike. -/
theorem Coherent.foldl_request (h : index.Coherent) (tree : FileTree) (names : List String) :
    (names.foldl (LibraryIndex.request tree) index).Coherent
      ∧ Alike tree index (names.foldl (LibraryIndex.request tree) index) := by
  induction names generalizing index with
  | nil => exact ⟨h, Alike.refl index⟩
  | cons name names ih =>
    obtain ⟨hcoherent, halike⟩ := ih (h.requestIn tree name "" standardPackages)
    exact ⟨hcoherent, (h.alike_requestIn tree name "" standardPackages).trans halike⟩

end Request

end LibraryIndex

end ClassAtlas
