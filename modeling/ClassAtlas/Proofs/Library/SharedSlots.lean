import ClassAtlas.Proofs.Library.PackageLeaves
import ClassAtlas.Proofs.Library.Requests

/-!
# Slots of the class table and of the package tree

A request for a class goes through the class table of its library, and the package tree
shows what requests have left in its own slots. Both give a class the number of a place
where it was enumerated: the table that of the last place, the tree that of the first. A
class that is enumerated once therefore has one slot, and the tree shows the class as
soon as a request has been answered with it. A class that is enumerated several times
has another slot in the tree than in the table, and the tree never shows it.
-/

namespace ClassAtlas

/-- The first place of a name and the one that is written last agree exactly when the name
stands there no more than once. -/
theorem lookup_zipIdx_eq_get?_iff (names : List String) (name : String) :
    names.zipIdx.lookup name
        = (names.zipIdx.foldl (fun table (name, number) => table.insert name number)
          (.empty : Table String Nat)).get? name
      ↔ names.count name ≤ 1 := by
  induction names using List.reverseRecOn with
  | nil => simp
  | append_singleton names last ih =>
    have hplace : [last].zipIdx names.length = [(last, names.length)] := rfl
    rw [List.zipIdx_append, Nat.zero_add, hplace, List.lookup_append, List.foldl_append,
      List.foldl_cons, List.foldl_nil, Table.get?_insert, List.count_append]
    by_cases hsame : name = last
    · subst hsame
      rw [if_pos rfl, List.lookup_cons, beq_self_eq_true, List.count_singleton_self]
      cases hfirst : names.zipIdx.lookup name with
      | none =>
        have habsent : name ∉ names := by
          intro hmem
          rw [← List.zipIdx_map_fst 0 names] at hmem
          obtain ⟨place, hplaced⟩ := PackageTree.exists_lookup_of_mem hmem
          rw [hfirst] at hplaced
          cases hplaced
        simp [List.count_eq_zero.2 habsent]
      | some place =>
        have hmem := PackageTree.mem_of_lookup_eq_some hfirst
        have hbefore : place < names.length := List.snd_lt_of_mem_zipIdx hmem
        have hcount : 0 < names.count name :=
          List.count_pos_iff.2 (List.fst_mem_of_mem_zipIdx hmem)
        rw [Option.some_or, Option.some.injEq]
        omega
    · have hother : [(last, names.length)].lookup name = none := by
        rw [List.lookup_cons, beq_false_of_ne hsame, List.lookup_nil]
      have hcount : [last].count name = 0 := List.count_eq_zero.2 (by simpa using hsame)
      rw [if_neg hsame, hother, Option.or_none, ih, hcount, Nat.add_zero]

namespace Library

variable {tree : FileTree} {library : Library} {name : String} {number : Nat}
  {description : ClassDescription}

/-! ## Requests one after the other -/

/-- The library after some requests, between which the files may change. -/
def requestAll (library : Library) (requests : List (FileTree × String)) : Library :=
  requests.foldl (fun library (tree, asked) => library.request tree asked) library

/-- The names that are asked for, each with the answer to the request. -/
def answers (library : Library) :
    (requests : List (FileTree × String)) → List (String × Option ClassDescription)
  | [] => []
  | (tree, asked) :: later =>
    (asked, library.class? tree asked) :: (library.request tree asked).answers later

@[simp] theorem tree_request (tree : FileTree) (library : Library) (asked : String) :
    (library.request tree asked).tree = library.tree := by
  unfold request
  split <;> rfl

@[simp] theorem size_slots_request (tree : FileTree) (library : Library) (asked : String) :
    (library.request tree asked).slots.size = library.slots.size := by
  unfold request
  split
  · rfl
  · exact Array.size_setIfInBounds

theorem tree_requestAll (library : Library) (requests : List (FileTree × String)) :
    (library.requestAll requests).tree = library.tree := by
  induction requests generalizing library with
  | nil => rfl
  | cons request later ih => exact (ih _).trans (tree_request request.1 library request.2)

/-- A slot shows a class exactly if it is loaded with it. -/
theorem description?_eq_some_iff (slot : ClassSlot) :
    slot.description? = some description ↔ slot = .loaded description := by
  cases slot <;> simp [ClassSlot.description?]

/-- A slot that is loaded stays as it is. -/
theorem settledSlot_of_loaded (h : library.slot number = .loaded description) :
    library.settledSlot tree name number = .loaded description := by
  rw [settledSlot, h]

/-- The slot of a class is loaded exactly when it was in the beginning or when a request has been
answered with the class. -/
theorem slot_requestAll_eq_loaded_iff (h : library.Numbered)
    (hname : library.table.get? name = some number) (hlt : number < library.slots.size)
    (requests : List (FileTree × String)) :
    (library.requestAll requests).slot number = .loaded description
      ↔ library.slot number = .loaded description
        ∨ (name, some description) ∈ library.answers requests := by
  induction requests generalizing library with
  | nil => simp [requestAll, answers]
  | cons request later ih =>
    obtain ⟨tree, asked⟩ := request
    have hstep : ((library.request tree asked).requestAll later).slot number
        = .loaded description ↔ _ :=
      ih (numbered_request tree asked h) (by rw [table_request, hname])
        (by rw [size_slots_request]; exact hlt)
    have hfirst : (library.request tree asked).slot number = .loaded description
        ↔ library.slot number = .loaded description
          ∨ (name, some description) = (asked, library.class? tree asked) := by
      cases hasked : library.table.get? asked with
      | none => simp [request, class?, hasked]
      | some place =>
        by_cases hsame : asked = name
        · subst hsame
          obtain rfl := Option.some.inj (hasked.symm.trans hname)
          rw [slot_request hasked, if_pos ⟨rfl, hlt⟩, class?, hasked, Prod.mk.injEq, and_iff_right rfl,
            eq_comm (a := some description), description?_eq_some_iff]
          exact (or_iff_right_of_imp settledSlot_of_loaded).symm
        · have hplace : ¬ (number = place ∧ place < library.slots.size) := by
            rintro ⟨rfl, _⟩
            exact hsame (h.name_unique hasked hname)
          rw [slot_request hasked, if_neg hplace]
          simp [Ne.symm hsame]
    rw [answers, List.mem_cons, ← or_assoc, ← hfirst]
    exact hstep

/-- Requests leave a slot alone to which the table does not lead. -/
theorem slot_requestAll_of_forall (h : ∀ asked, library.table.get? asked ≠ some number)
    (requests : List (FileTree × String)) :
    (library.requestAll requests).slot number = library.slot number := by
  induction requests generalizing library with
  | nil => rfl
  | cons request later ih =>
    obtain ⟨tree, asked⟩ := request
    have hstep : ((library.request tree asked).requestAll later).slot number
        = (library.request tree asked).slot number :=
      ih fun other => by rw [table_request]; exact h other
    have hfirst : (library.request tree asked).slot number = library.slot number := by
      cases hasked : library.table.get? asked with
      | none => rw [request, hasked]
      | some place =>
        have hplace : ¬ (number = place ∧ place < library.slots.size) :=
          fun hsame => h asked (hsame.1 ▸ hasked)
        rw [slot_request hasked, if_neg hplace]
    exact hstep.trans hfirst

/-- The package tree shows a class after some requests exactly when one of them was answered
with it. -/
def ShowsAnswers (library : Library) (requests : List (FileTree × String)) (name : String) :
    Prop :=
  ∀ description, ((library.requestAll requests).tree.get? name).bind
      (library.requestAll requests).loaded? = some description
    ↔ (name, some description) ∈ library.answers requests

/-- What the tree shows of a class is in the slot of its leaf. -/
theorem bind_loaded?_requestAll (hleaf : library.tree.get? name = some (.leaf number))
    (requests : List (FileTree × String)) :
    ((library.requestAll requests).tree.get? name).bind (library.requestAll requests).loaded?
      = ((library.requestAll requests).slot number).description? := by
  rw [tree_requestAll, hleaf]
  rfl

/-! ## Opened libraries -/

/-- An opened library is made of the classes of its location. -/
theorem exists_source_of_openAt {location : Location} {sourceLocation : Option SourceLocation}
    (h : openAt tree location sourceLocation = .ok library) :
    ∃ source, ClassSource.openLocation tree location = .ok source
      ∧ library = ofSource location sourceLocation source := by
  unfold openAt at h
  cases hopen : ClassSource.openLocation tree location with
  | error cause =>
    rw [hopen] at h
    cases h
  | ok source =>
    rw [hopen] at h
    exact ⟨source, rfl, (Except.ok.inj h).symm⟩

section OfSource

variable (location : Location) (sourceLocation : Option SourceLocation) (source : ClassSource)

/-- The package tree of a new library holds its enumerated names with their numbers. -/
theorem holds_ofSource :
    PackageTree.Holds (ofSource location sourceLocation source).tree source.names.zipIdx :=
  PackageTree.holds_ofInsertions source.names.zipIdx

/-- All slots of a new library are unset. -/
theorem slot_ofSource (number : Nat) :
    (ofSource location sourceLocation source).slot number = .unset := by
  unfold slot ofSource
  dsimp only
  rw [Array.getElem?_replicate]
  split <;> rfl

/-- The tree gives a class the number of its first place. -/
theorem lookup_of_get?_tree
    (h : (ofSource location sourceLocation source).tree.get? name = some (.leaf number)) :
    source.names.zipIdx.lookup name = some number :=
  (((holds_ofSource location sourceLocation source).get?_eq_leaf_iff name number).1 h).2

/-- The numbers of the tree and of the table agree for the classes that are enumerated once. -/
theorem number_eq_iff {last : Nat}
    (hleaf : (ofSource location sourceLocation source).tree.get? name = some (.leaf number))
    (hlast : (ofSource location sourceLocation source).table.get? name = some last) :
    number = last ↔ source.names.count name = 1 := by
  have hfirst := lookup_of_get?_tree location sourceLocation source hleaf
  have hagree := lookup_zipIdx_eq_get?_iff source.names name
  rw [hfirst] at hagree
  have hpos : 0 < source.names.count name :=
    List.count_pos_iff.2 (List.fst_mem_of_mem_zipIdx (PackageTree.mem_of_lookup_eq_some hfirst))
  have hnumbers : some number = (ofSource location sourceLocation source).table.get? name
      ↔ source.names.count name ≤ 1 := hagree
  rw [hlast, Option.some.injEq] at hnumbers
  omega

/-- A class with one slot is shown as soon as a request has been answered with it. -/
theorem showsAnswers_of_shared
    (hleaf : (ofSource location sourceLocation source).tree.get? name = some (.leaf number))
    (hnumber : (ofSource location sourceLocation source).table.get? name = some number)
    (requests : List (FileTree × String)) :
    (ofSource location sourceLocation source).ShowsAnswers requests name := by
  have hnumbered := numbered_ofSource location sourceLocation source
  have hlt : number < (ofSource location sourceLocation source).slots.size := by
    obtain ⟨hplace, _⟩ := List.getElem?_eq_some_iff.1 (hnumbered.number_names hnumber)
    simpa [ofSource, classNames] using hplace
  intro description
  rw [bind_loaded?_requestAll hleaf, description?_eq_some_iff,
    slot_requestAll_eq_loaded_iff hnumbered hnumber hlt, slot_ofSource]
  simp

/-- A class with another slot in the table keeps the slot of the tree unset. -/
theorem slot_requestAll_of_separate {last : Nat}
    (hleaf : (ofSource location sourceLocation source).tree.get? name = some (.leaf number))
    (hlast : (ofSource location sourceLocation source).table.get? name = some last)
    (hne : number ≠ last) (requests : List (FileTree × String)) :
    ((ofSource location sourceLocation source).requestAll requests).slot number = .unset := by
  have hnumbered := numbered_ofSource location sourceLocation source
  have hplace := PackageTree.mem_of_lookup_eq_some
    (lookup_of_get?_tree location sourceLocation source hleaf)
  rw [slot_requestAll_of_forall, slot_ofSource]
  intro asked hasked
  have hname := hnumbered.number_names hasked
  rw [classNames, ofSource, List.mem_zipIdx_iff_getElem?.1 hplace] at hname
  obtain rfl := Option.some.inj hname
  exact hne (Option.some.inj (hasked.symm.trans hlast))

end OfSource

/-- A class file that is opened enumerates the one class that it declares. -/
theorem exists_names_openClassFile {path : String} {source : SingleSource}
    (h : SingleSource.openClassFile tree path = .ok source) : ∃ declared, source.names = [declared] := by
  unfold SingleSource.openClassFile at h
  cases hlocate : tree.locate path with
  | missing | unreachable | directory place =>
    rw [hlocate] at h
    cases h
  | file content =>
    rw [hlocate] at h
    dsimp only at h
    split at h
    · next description _ =>
      cases h
      exact ⟨description.name, rfl⟩
    · cases h

/-- Neither a class file nor a list of paths enumerates a class twice. -/
theorem nodup_names_of_kind {location : Location} {source : ClassSource}
    (h : ClassSource.openLocation tree location = .ok source)
    (hkind : location.kind = .classFile ∨ location.kind = .classpath) : source.names.Nodup := by
  unfold ClassSource.openLocation at h
  rcases hkind with hfile | hpaths
  · rw [hfile] at h
    dsimp only at h
    cases hopen : SingleSource.openClassFile tree location.path with
    | error cause =>
      rw [hopen] at h
      cases h
    | ok single =>
      rw [hopen] at h
      cases h
      obtain ⟨declared, hnames⟩ := exists_names_openClassFile hopen
      rw [ClassSource.names, hnames]
      exact List.nodup_singleton declared
  · rw [hpaths] at h
    dsimp only at h
    cases hopen : (Location.listedPaths location.path).mapM (SingleSource.openPath tree) with
    | error cause =>
      rw [hopen] at h
      cases h
    | ok sources =>
      rw [hopen] at h
      cases h
      exact LibraryIndex.nodup_eraseDups _

/-- Every leaf of the package tree of an opened library is a class of the library. It shows the
answers to requests exactly when it is enumerated once, as in a class file or a list of paths,
or when no request for it has been answered with a class. -/
theorem leaf_shows_answers_iff {location : Location} {sourceLocation : Option SourceLocation}
    (hopen : openAt tree location sourceLocation = .ok library)
    (requests : List (FileTree × String)) :
    ∀ name number, library.tree.get? name = some (.leaf number) →
      library.contains name = true
      ∧ (library.ShowsAnswers requests name ↔ library.classNames.count name = 1
        ∨ ∀ description, (name, some description) ∉ library.answers requests)
      ∧ (location.kind = .classFile ∨ location.kind = .classpath →
        library.classNames.count name = 1) := by
  intro name number hleaf
  obtain ⟨source, hsource, rfl⟩ := exists_source_of_openAt hopen
  have hnumbered := numbered_ofSource location sourceLocation source
  have hplace := PackageTree.mem_of_lookup_eq_some
    (lookup_of_get?_tree location sourceLocation source hleaf)
  have hmem : name ∈ source.names := List.fst_mem_of_mem_zipIdx hplace
  obtain ⟨last, hlast⟩ := Option.ne_none_iff_exists'.1 (hnumbered.names_numbered hmem)
  have hshared := number_eq_iff location sourceLocation source hleaf hlast
  refine ⟨?_, ?_, fun hkind => List.count_eq_one_of_mem (nodup_names_of_kind hsource hkind) hmem⟩
  · rw [hnumbered.contains_eq, List.contains_iff_mem]
    exact hmem
  · by_cases hsame : number = last
    · subst hsame
      exact iff_of_true (showsAnswers_of_shared location sourceLocation source hleaf hlast requests)
        (.inl (hshared.1 rfl))
    · have hunset := slot_requestAll_of_separate location sourceLocation source hleaf hlast hsame
        requests
      have htwice : ¬ (ofSource location sourceLocation source).classNames.count name = 1 :=
        fun honce => hsame (hshared.2 honce)
      rw [or_iff_right htwice, ShowsAnswers, bind_loaded?_requestAll hleaf, hunset]
      simp [ClassSlot.description?]

/-- A class file that declares a class and nothing else, by the bytes of its internal name. -/
def plainFile (internal : Bytes) : Bytes :=
  [0xCA, 0xFE, 0xBA, 0xBE, 0x00, 0x00, 0x00, 0x34, 0x00, 0x03, 0x01, 0x00,
    UInt8.ofNat internal.length] ++ internal
    ++ [0x07, 0x00, 0x01, 0x00, 0x21, 0x00, 0x02, 0x00, 0x00, 0x00, 0x00, 0x00, 0x00, 0x00, 0x00,
      0x00, 0x00]

/-- The entries of an archive in which the class `a.b.C` has two entries and the class `D` one. -/
def twinEntries : List ArchiveEntry :=
  [⟨"a.b/C.class", plainFile [0x61, 0x2F, 0x62, 0x2F, 0x43], false⟩,
    ⟨"a/b/C.class", plainFile [0x61, 0x2F, 0x62, 0x2F, 0x43], false⟩,
    ⟨"D.class", plainFile [0x44], false⟩]

/-- The tree that holds this archive. -/
def twinTree : FileTree :=
  ⟨[(["lib.jar"], .file (.archive twinEntries))], []⟩

/-- The library of this archive. -/
def twinLibrary : Library :=
  ofSource ⟨.archive, "lib.jar"⟩ none (.single (.archive twinEntries))

theorem openAt_twinTree : openAt twinTree ⟨.archive, "lib.jar"⟩ none = .ok twinLibrary := by
  have hopen : ClassSource.openLocation twinTree ⟨.archive, "lib.jar"⟩
      = .ok (.single (.archive twinEntries)) := by
    rfl
  rw [openAt, hopen]
  rfl

/-- Requests for both classes are answered, and one for `a.b.C` fills no slot that a leaf names. -/
theorem twinLibrary_requested :
    ((twinLibrary.class? twinTree "D").isSome = true
      ∧ (twinLibrary.class? twinTree "a.b.C").isSome = true)
    ∧ (twinLibrary.tree.get? "D" = some (.leaf 2)
      ∧ twinLibrary.tree.get? "a.b.C" = some (.leaf 0))
    ∧ (((twinLibrary.requestAll [(twinTree, "a.b.C")]).tree.get? "a.b.C").bind
        (twinLibrary.requestAll [(twinTree, "a.b.C")]).loaded?).isNone = true := by
  decide +kernel

/-- The class with one entry is shown after a request. -/
theorem single_entry_shown :
    twinLibrary.tree.get? "D" = some (.leaf 2)
      ∧ ∃ description, ("D", some description) ∈ twinLibrary.answers [(twinTree, "D")]
        ∧ ((twinLibrary.requestAll [(twinTree, "D")]).tree.get? "D").bind
          (twinLibrary.requestAll [(twinTree, "D")]).loaded? = some description := by
  obtain ⟨⟨hanswered, -⟩, ⟨hleaf, -⟩, -⟩ := twinLibrary_requested
  obtain ⟨description, hdescription⟩ := Option.isSome_iff_exists.1 hanswered
  have hmem : ("D", some description) ∈ twinLibrary.answers [(twinTree, "D")] := by
    rw [answers, hdescription]
    exact List.mem_cons_self
  have honce : twinLibrary.classNames.count "D" = 1 := by rfl
  have hshows := (leaf_shows_answers_iff openAt_twinTree [(twinTree, "D")] "D" 2 hleaf).2.1.2
    (.inl honce)
  exact ⟨hleaf, description, hmem, (hshows description).2 hmem⟩

/-- Not every leaf shows the answers to requests: the class with two entries is a leaf, a request
for it is answered, and the tree shows nothing. -/
theorem twin_entries_never_shown :
    openAt twinTree ⟨.archive, "lib.jar"⟩ none = .ok twinLibrary
      ∧ twinLibrary.tree.get? "a.b.C" = some (.leaf 0)
      ∧ (twinLibrary.class? twinTree "a.b.C").isSome = true
      ∧ ((twinLibrary.requestAll [(twinTree, "a.b.C")]).tree.get? "a.b.C").bind
        (twinLibrary.requestAll [(twinTree, "a.b.C")]).loaded? = none
      ∧ ¬ twinLibrary.ShowsAnswers [(twinTree, "a.b.C")] "a.b.C" := by
  obtain ⟨⟨-, hanswered⟩, ⟨-, hleaf⟩, hblank⟩ := twinLibrary_requested
  have hnone := Option.isNone_iff_eq_none.1 hblank
  refine ⟨openAt_twinTree, hleaf, hanswered, hnone, fun hshows => ?_⟩
  obtain ⟨description, hdescription⟩ := Option.isSome_iff_exists.1 hanswered
  have hmem : ("a.b.C", some description)
      ∈ twinLibrary.answers [(twinTree, "a.b.C")] := by
    rw [answers, hdescription]
    exact List.mem_cons_self
  have hshown := (hshows description).2 hmem
  rw [hnone] at hshown
  cases hshown

end Library

end ClassAtlas
