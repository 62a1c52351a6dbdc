import ClassAtlas.Proofs.Library.Requests
import ClassAtlas.Proofs.Text.Splitting
import Mathlib.Data.List.Perm.Basic

/-!
# Lists of paths

A list of paths is opened as one library, in which the first path that holds a
class provides it. Registering the paths one by one makes a library of each of
them, and the index lets the first library that holds a class serve it. Both come
to the same: every name leads to the same class, and a path that cannot be opened
is refused with the same error.
-/

namespace ClassAtlas

/-! ## Written lists -/

namespace Location

/-- The location that lists some paths. -/
def ofPaths (paths : List String) : Location :=
  ⟨.classpath, Text.joined ":" paths⟩

/-- The paths of a list are those that it was written from. -/
theorem listedPaths_joined {paths : List String}
    (h : ∀ path ∈ paths, path ≠ "" ∧ ':' ∉ path.toList) :
    listedPaths (Text.joined ":" paths) = paths := by
  cases paths with
  | nil => rfl
  | cons first others =>
    have hmarks : ∀ path ∈ first :: others, ':' ∉ path.toList := fun path hpath => (h path hpath).2
    rw [listedPaths, Text.splitAtMark_joined rfl (List.cons_ne_nil first others) hmarks,
      List.filter_eq_self]
    intro path hpath
    exact decide_eq_true (h path hpath).1

/-- A path suggests one of the three kinds of a single path. -/
theorem ofPath_cases (path : String) :
    ofPath path = ⟨.archive, path⟩ ∨ ofPath path = ⟨.classFile, path⟩
      ∨ ofPath path = ⟨.directory, path⟩ := by
  unfold ofPath
  dsimp only
  split
  · split
    · exact .inl rfl
    · split
      · exact .inr (.inl rfl)
      · exact .inr (.inr rfl)
  · exact .inr (.inr rfl)

/-- The key of a path consists of its parts. -/
theorem parts_key_ofPath (path : String) : (ofPath path).key.parts = Path.parts path := by
  rcases ofPath_cases path with h | h | h <;> rw [h] <;> rfl

/-- Whether a location can be opened. -/
def Opens (tree : FileTree) (location : Location) : Prop :=
  ∃ source, ClassSource.openLocation tree location = .ok source

end Location

/-! ## Opening paths one after the other -/

section MapM

variable {α β ε : Type} {f : α → Except ε β}

/-- What is read item by item from the first components is the list of the second ones. -/
theorem mapM_fst_eq_ok {pairs : List (α × β)} (h : ∀ pair ∈ pairs, f pair.1 = .ok pair.2) :
    (pairs.map (·.1)).mapM f = .ok (pairs.map (·.2)) := by
  induction pairs with
  | nil => rfl
  | cons pair pairs ih =>
    obtain ⟨hfirst, hrest⟩ := List.forall_mem_cons.1 h
    rw [List.map_cons, List.mapM_cons, hfirst, ih hrest]
    rfl

/-- The first item that fails decides. -/
theorem mapM_eq_error {before : List (α × β)} {item : α} {error : ε} {behind : List α}
    (h : ∀ pair ∈ before, f pair.1 = .ok pair.2) (hitem : f item = .error error) :
    (before.map (·.1) ++ item :: behind).mapM f = .error error := by
  induction before with
  | nil =>
    rw [List.map_nil, List.nil_append, List.mapM_cons, hitem]
    rfl
  | cons pair before ih =>
    obtain ⟨hfirst, hrest⟩ := List.forall_mem_cons.1 h
    rw [List.map_cons, List.cons_append, List.mapM_cons, hfirst, ih hrest]
    rfl

/-- Either all items succeed, or there is a first one that fails. -/
theorem exists_pairs_or_error (f : α → Except ε β) (items : List α) :
    (∃ pairs : List (α × β), pairs.map (·.1) = items ∧ ∀ pair ∈ pairs, f pair.1 = .ok pair.2)
      ∨ ∃ (before : List (α × β)) (item : α) (behind : List α) (error : ε),
        items = before.map (·.1) ++ item :: behind
          ∧ (∀ pair ∈ before, f pair.1 = .ok pair.2) ∧ f item = .error error := by
  induction items with
  | nil => exact .inl ⟨[], rfl, fun _ hmem => absurd hmem List.not_mem_nil⟩
  | cons item items ih =>
    cases hitem : f item with
    | error error =>
      exact .inr ⟨[], item, items, error, rfl, fun _ hmem => absurd hmem List.not_mem_nil, hitem⟩
    | ok value =>
      rcases ih with ⟨pairs, rfl, hpairs⟩ | ⟨before, failing, behind, error, rfl, hbefore, herror⟩
      · exact .inl ⟨(item, value) :: pairs, rfl, List.forall_mem_cons.2 ⟨hitem, hpairs⟩⟩
      · exact .inr ⟨(item, value) :: before, failing, behind, error, rfl,
          List.forall_mem_cons.2 ⟨hitem, hbefore⟩, herror⟩

end MapM

namespace ClassSource

/-- A path on its own is opened as it is opened in a list. -/
theorem openLocation_ofPath (tree : FileTree) (path : String) :
    openLocation tree (.ofPath path) = (SingleSource.openPath tree path).map single := by
  unfold openLocation SingleSource.openPath
  rcases Location.ofPath_cases path with h | h | h <;> rw [h]

/-- A list of paths is opened path by path, if none of them is empty or has a separator in it. -/
theorem openLocation_ofPaths {tree : FileTree} {paths : List String}
    (h : ∀ path ∈ paths, path ≠ "" ∧ ':' ∉ path.toList) :
    openLocation tree (.ofPaths paths)
      = (paths.mapM (SingleSource.openPath tree)).map several := by
  rw [openLocation, Location.ofPaths]
  simp only [Location.listedPaths_joined h]

/-- A class of several paths is found in one of them. -/
theorem mem_names_several {sources : List SingleSource} {name : String} :
    name ∈ (several sources).names
      ↔ (sources.find? (·.names.contains name)).isSome = true := by
  rw [names, List.mem_eraseDups, List.mem_flatMap, List.find?_isSome]
  simp only [List.contains_iff_mem]

end ClassSource

/-! ## The class of a name in a fresh library -/

namespace Library

/-- What reading a class from a source makes of its slot. -/
theorem readSlot_congr {tree : FileTree} {first second : Library} {name : String}
    (h : first.source.read tree name = second.source.read tree name) :
    first.readSlot tree name = second.readSlot tree name := by
  unfold readSlot
  rw [h]

/-- Nothing has been asked for, so that an enumerated class is read now. -/
theorem class?_ofSource {tree : FileTree} {location : Location}
    {sourceLocation : Option SourceLocation} {source : ClassSource} {name : String}
    (h : name ∈ source.names) :
    (ofSource location sourceLocation source).class? tree name
      = ((ofSource location sourceLocation source).readSlot tree name).description? := by
  have hnumbered := numbered_ofSource location sourceLocation source
  obtain ⟨number, hnumber⟩ := Option.ne_none_iff_exists'.1 (hnumbered.names_numbered h)
  have hunset : (ofSource location sourceLocation source).slot number = .unset := by
    simp only [slot, ofSource, Array.getElem?_replicate]
    split <;> rfl
  rw [class?, hnumber]
  simp only [settledSlot, hunset]

/-- The library of a path that has been opened. -/
def ofEntry (entry : String × SingleSource) : Library :=
  ofSource (.ofPath entry.1) none (.single entry.2)

/-- The library of a list of paths that have been opened. -/
def ofEntries (entries : List (String × SingleSource)) : Library :=
  ofSource (.ofPaths (entries.map (·.1))) none (.several (entries.map (·.2)))

/-- A path that can be opened is a library of its own. -/
theorem openAt_ofPath {tree : FileTree} {entry : String × SingleSource}
    (h : SingleSource.openPath tree entry.1 = .ok entry.2) :
    openAt tree (.ofPath entry.1) none = .ok (ofEntry entry) := by
  rw [openAt, ClassSource.openLocation_ofPath, h]
  rfl

/-- A list of paths that can be opened is one library of all of them. -/
theorem openAt_ofPaths {tree : FileTree} {entries : List (String × SingleSource)}
    (hpaths : ∀ path ∈ entries.map (·.1), path ≠ "" ∧ ':' ∉ path.toList)
    (hopen : ∀ entry ∈ entries, SingleSource.openPath tree entry.1 = .ok entry.2) :
    openAt tree (.ofPaths (entries.map (·.1))) none = .ok (ofEntries entries) := by
  rw [openAt, ClassSource.openLocation_ofPaths hpaths, mapM_fst_eq_ok hopen]
  rfl

end Library

/-! ## Tables with distinct keys -/

namespace Table

variable {κ ν : Type} [DecidableEq κ] {table : Table κ ν}

/-- The keys of a table are those under which something is found. -/
theorem mem_keys_iff {key : κ} : key ∈ table.keys ↔ table.get? key ≠ none := by
  refine ⟨fun hmem hnone => ?_, mem_keys_of_get?_ne_none⟩
  obtain ⟨entry, hentry, rfl⟩ := List.mem_map.1 hmem
  rw [get?, Option.map_eq_none_iff, List.find?_eq_none] at hnone
  simpa using hnone entry hentry

/-- A new value leaves the keys of a table distinct. -/
theorem nodup_keys_insertNew (h : table.keys.Nodup) (key : κ) (value : ν) :
    (table.insertNew key value).keys.Nodup := by
  unfold insertNew
  split
  · exact h
  · have hold : (table.erase key).keys.Nodup := h.sublist (List.filter_sublist.map _)
    have hnew : key ∉ (table.erase key).keys := by
      rw [mem_keys_iff, get?_erase]
      simp
    exact List.nodup_cons.2 ⟨hnew, hold⟩

end Table

namespace LibraryIndex

variable {tree : FileTree} {index : LibraryIndex}

/-- Adding a library leaves the names of the served classes distinct. -/
theorem nodup_owners_add (h : index.owners.keys.Nodup) (library : Library) :
    (index.add library).owners.keys.Nodup := by
  unfold add
  dsimp only
  generalize index.owners = owners at h
  induction library.classNames generalizing owners with
  | nil => exact h
  | cons name names ih => exact ih _ (Table.nodup_keys_insertNew h name library.key)

theorem nodup_owners_empty : empty.owners.keys.Nodup :=
  List.nodup_nil

theorem nodup_owners_foldl_add (h : index.owners.keys.Nodup) (libraries : List Library) :
    (libraries.foldl LibraryIndex.add index).owners.keys.Nodup := by
  induction libraries generalizing index with
  | nil => exact h
  | cons library libraries ih => exact ih (nodup_owners_add h library)

/-! ## Indices that serve the same names -/

/-- Two indices in which every name leads to the same class. -/
structure ServesAlike (tree : FileTree) (first second : LibraryIndex) : Prop where
  /-- The same names are served. -/
  contains_eq : ∀ name, first.contains name = second.contains name
  /-- The same classes are listed for each package, in the same order. -/
  classes_eq : ∀ package, first.classesInPackage package = second.classesInPackage package
  /-- Every written name leads to the same class, whatever packages are tried for it. -/
  lookup_eq : ∀ name current defaults,
    first.lookupIn? tree name current defaults = second.lookupIn? tree name current defaults

theorem ServesAlike.symm {first second : LibraryIndex} (h : ServesAlike tree first second) :
    ServesAlike tree second first :=
  ⟨fun name => (h.contains_eq name).symm, fun package => (h.classes_eq package).symm,
    fun name current defaults => (h.lookup_eq name current defaults).symm⟩

theorem ServesAlike.trans {first second third : LibraryIndex}
    (h : ServesAlike tree first second) (h' : ServesAlike tree second third) :
    ServesAlike tree first third :=
  ⟨fun name => (h.contains_eq name).trans (h'.contains_eq name),
    fun package => (h.classes_eq package).trans (h'.classes_eq package),
    fun name current defaults =>
      (h.lookup_eq name current defaults).trans (h'.lookup_eq name current defaults)⟩

/-- Indices in which every name leads to the same class serve alike. -/
theorem Alike.servesAlike {first second : LibraryIndex} (h : Alike tree first second) :
    ServesAlike tree first second where
  contains_eq _ := by rw [contains, h.owners_eq, ← contains]
  classes_eq _ := by rw [classesInPackage, h.owners_eq, ← classesInPackage]
  lookup_eq := h.lookupIn?_eq

/-- Looking names up leaves an index that serves alike. -/
theorem Coherent.servesAlike_request (h : index.Coherent) (tree : FileTree)
    (asked : List String) :
    ServesAlike tree index (asked.foldl (LibraryIndex.request tree) index) :=
  (h.foldl_request tree asked).2.servesAlike

/-- Two texts can be inserted in either order. -/
theorem insertSorted_comm (first second : String) (texts : List String) :
    insertSorted first (insertSorted second texts)
      = insertSorted second (insertSorted first texts) := by
  induction texts with
  | nil =>
    simp only [insertSorted]
    grind
  | cons text texts ih =>
    simp only [insertSorted]
    grind [insertSorted]

/-- The order in which texts are inserted does not matter. -/
theorem foldr_insertSorted_of_perm {first second : List String} (h : first.Perm second) :
    first.foldr insertSorted [] = second.foldr insertSorted [] := by
  have : LeftCommutative insertSorted := ⟨insertSorted_comm⟩
  exact h.foldr_eq []

/-- Indices whose libraries give the same class for every name serve alike. -/
theorem Coherent.servesAlike {first second : LibraryIndex} (hfirst : first.Coherent)
    (hsecond : second.Coherent) (hfirstKeys : first.owners.keys.Nodup)
    (hsecondKeys : second.owners.keys.Nodup)
    (hclass : ∀ name, (first.owner? name).map (·.class? tree name)
      = (second.owner? name).map (·.class? tree name)) :
    ServesAlike tree first second where
  contains_eq := by
    intro name
    have hsome := congrArg Option.isSome (hclass name)
    rw [Option.isSome_map, Option.isSome_map] at hsome
    rw [hfirst.contains_eq, hsecond.contains_eq, hsome]
  classes_eq := by
    intro package
    refine foldr_insertSorted_of_perm (List.Perm.filter _ ?_)
    rw [List.perm_ext_iff_of_nodup hfirstKeys hsecondKeys]
    intro name
    have hnone := congrArg Option.isNone (hclass name)
    rw [Option.isNone_map, Option.isNone_map, hfirst.owner?_eq, hsecond.owner?_eq] at hnone
    rw [Table.mem_keys_iff, Table.mem_keys_iff, hfirst.serves_earliest, hsecond.serves_earliest]
    rw [Ne, Ne, Option.map_eq_none_iff, Option.map_eq_none_iff, ← Option.isNone_iff_eq_none, hnone,
      Option.isNone_iff_eq_none]
  lookup_eq := by
    intro name current defaults
    rw [lookupIn?_eq, lookupIn?_eq]
    simp only [hclass]

/-! ## Registering one by one -/

/-- Registers locations one after the other; the first one that is refused decides. -/
def registerAll (tree : FileTree) (index : LibraryIndex) (locations : List Location) :
    Except RegistrationError LibraryIndex :=
  locations.foldlM (fun index location => (index.register tree location none).map (·.2)) index

/-- A new location that can be opened is registered. -/
theorem register_of_openAt {location : Location} {library : Library}
    (hnew : index.libraryAt? location.key = none)
    (hopen : Library.openAt tree location none = .ok library) :
    index.register tree location none = .ok (library, index.add library) := by
  have hunregistered : index.isRegistered location = false := by
    rw [isRegistered, hnew]
    rfl
  exact register_eq_ok_iff.2 ⟨hunregistered, hopen, rfl⟩

/-- Adding a library leaves other locations unregistered. -/
theorem libraryAt?_add_eq_none {library : Library} {key : LocationKey}
    (hindex : index.libraryAt? key = none) (hkey : library.key ≠ key) :
    (index.add library).libraryAt? key = none := by
  rw [libraryAt?, libraries_add, List.find?_append, ← libraryAt?, hindex]
  simp [hkey]

/-- Paths that can be opened and are distinct become libraries one after the other. -/
theorem registerAll_entries {entries : List (String × SingleSource)}
    (hopen : ∀ entry ∈ entries, SingleSource.openPath tree entry.1 = .ok entry.2)
    (hdistinct : (entries.map fun entry => (Location.ofPath entry.1).key).Nodup)
    (hnew : ∀ entry ∈ entries, index.libraryAt? (Location.ofPath entry.1).key = none) :
    index.registerAll tree (entries.map fun entry => .ofPath entry.1)
      = .ok ((entries.map Library.ofEntry).foldl LibraryIndex.add index) := by
  induction entries generalizing index with
  | nil => rfl
  | cons entry entries ih =>
    obtain ⟨hfirst, hrest⟩ := List.forall_mem_cons.1 hopen
    obtain ⟨hfree, hfreeRest⟩ := List.forall_mem_cons.1 hnew
    obtain ⟨hapart, hdistinctRest⟩ := List.nodup_cons.1 hdistinct
    have hstep := register_of_openAt hfree (Library.openAt_ofPath hfirst)
    have hothers : ∀ other ∈ entries,
        (index.add (.ofEntry entry)).libraryAt? (Location.ofPath other.1).key = none := by
      intro other hother
      refine libraryAt?_add_eq_none (hfreeRest other hother) fun hkey => hapart ?_
      exact List.mem_map.2 ⟨other, hother, hkey.symm⟩
    rw [List.map_cons, registerAll, List.foldlM_cons, hstep]
    exact ih hrest hdistinctRest hothers

/-! ## The two registrations -/

section Entries

variable {entries : List (String × SingleSource)}

/-- Of the libraries of some paths, the first that enumerates a class gives what the list of
these paths gives. -/
theorem map_holder?_entries (tree : FileTree) (entries : List (String × SingleSource))
    (name : String) :
    (holder? [Library.ofEntries entries] name).map (·.class? tree name)
      = (holder? (entries.map Library.ofEntry) name).map (·.class? tree name) := by
  have hsearch : holder? (entries.map Library.ofEntry) name
      = (entries.find? fun entry => entry.2.names.contains name).map Library.ofEntry :=
    List.find?_map
  have hsources : (entries.map (·.2)).find? (fun source => source.names.contains name)
      = (entries.find? fun entry => entry.2.names.contains name).map (·.2) :=
    List.find?_map
  have hlisted : name ∈ (Library.ofEntries entries).classNames
      ↔ (entries.find? fun entry => entry.2.names.contains name).isSome = true := by
    rw [← Option.isSome_map, ← hsources]
    exact ClassSource.mem_names_several
  rw [hsearch]
  cases hfind : entries.find? fun entry => entry.2.names.contains name with
  | none =>
    rw [hfind] at hlisted
    have hunlisted : name ∉ (Library.ofEntries entries).classNames :=
      fun hmem => by simpa using hlisted.1 hmem
    simp [holder?, hunlisted]
  | some entry =>
    rw [hfind] at hlisted hsources
    have hmem : name ∈ (Library.ofEntries entries).classNames := hlisted.2 rfl
    have hentry : name ∈ entry.2.names := by simpa using List.find?_some hfind
    have hfirst : holder? [Library.ofEntries entries] name = some (.ofEntries entries) := by
      simp [holder?, hmem]
    -- the list reads the class from the same path
    have hread : (Library.ofEntries entries).source.read tree name
        = (Library.ofEntry entry).source.read tree name := by
      simp only [Library.ofEntries, Library.ofEntry, Library.ofSource, ClassSource.read, hsources,
        Option.map_some]
    have hjoined : (Library.ofEntries entries).class? tree name
        = ((Library.ofEntries entries).readSlot tree name).description? :=
      Library.class?_ofSource hmem
    have hseparate : (Library.ofEntry entry).class? tree name
        = ((Library.ofEntry entry).readSlot tree name).description? :=
      Library.class?_ofSource hentry
    rw [hfirst, Option.map_some, Option.map_some, Option.map_some, hjoined, hseparate,
      Library.readSlot_congr hread]

/-- The index of one library for all entries is coherent. -/
theorem coherent_add_ofEntries (entries : List (String × SingleSource)) :
    (empty.add (.ofEntries entries)).Coherent :=
  coherent_empty.add (Library.numbered_ofSource _ _ _) rfl

/-- The index of one library for each entry is coherent, if the entries are at distinct locations.
-/
theorem coherent_foldl_add_entries
    (hdistinct : (entries.map fun entry => (Location.ofPath entry.1).key).Nodup) :
    ((entries.map Library.ofEntry).foldl LibraryIndex.add empty).libraries
        = entries.map Library.ofEntry
      ∧ ((entries.map Library.ofEntry).foldl LibraryIndex.add empty).Coherent := by
  refine coherent_foldl_add ?_ fun library hlibrary => ?_
  · rw [List.map_map]
    exact hdistinct
  · obtain ⟨entry, _, rfl⟩ := List.mem_map.1 hlibrary
    exact Library.numbered_ofSource _ _ _

/-- Opened as one or registered one by one, paths serve the same classes under the same
names. -/
theorem servesAlike_entries (tree : FileTree)
    (hdistinct : (entries.map fun entry => (Location.ofPath entry.1).key).Nodup) :
    ServesAlike tree (empty.add (.ofEntries entries))
      ((entries.map Library.ofEntry).foldl LibraryIndex.add empty) := by
  have hjoined := coherent_add_ofEntries entries
  obtain ⟨hlibraries, hseparate⟩ := coherent_foldl_add_entries hdistinct
  refine hjoined.servesAlike hseparate (nodup_owners_add nodup_owners_empty _)
    (nodup_owners_foldl_add nodup_owners_empty _) fun name => ?_
  rw [hjoined.owner?_eq, hseparate.owner?_eq, hlibraries]
  exact map_holder?_entries tree entries name

/-- Paths of distinct parts are distinct locations. -/
theorem nodup_keys_of_parts (h : ((entries.map (·.1)).map Path.parts).Nodup) :
    (entries.map fun entry => (Location.ofPath entry.1).key).Nodup := by
  refine List.Nodup.of_map LocationKey.parts ?_
  simpa only [List.map_map, Function.comp_def, Location.parts_key_ofPath] using h

/-- The first path that cannot be opened refuses the list. -/
theorem register_ofPaths_eq_error {path : String} {later : List String}
    {error : RegistrationError}
    (hpaths : ∀ other ∈ entries.map (·.1) ++ path :: later, other ≠ "" ∧ ':' ∉ other.toList)
    (hopen : ∀ entry ∈ entries, SingleSource.openPath tree entry.1 = .ok entry.2)
    (herror : SingleSource.openPath tree path = .error error)
    (hnew : index.isRegistered (.ofPaths (entries.map (·.1) ++ path :: later)) = false) :
    index.register tree (.ofPaths (entries.map (·.1) ++ path :: later)) none = .error error := by
  rw [register, hnew, Library.openAt, ClassSource.openLocation_ofPaths hpaths,
    mapM_eq_error hopen herror]
  rfl

end Entries

/-- A list of distinct paths that can all be opened serves what the paths serve that are
registered one by one, also after any names have been looked up; and where a path cannot be
opened, the first such path refuses the list with its own error, and nothing is registered. -/
theorem path_list_equals_entries (tree : FileTree) (paths : List String)
    (hpaths : ∀ path ∈ paths, path ≠ "" ∧ ':' ∉ path.toList) :
    ((paths.map Path.parts).Nodup → (∀ path ∈ paths, (Location.ofPath path).Opens tree) →
      ∃ library joined separate,
        empty.register tree (.ofPaths paths) none = .ok (library, joined)
          ∧ joined.libraries = [library] ∧ library.location = .ofPaths paths
          ∧ empty.registerAll tree (paths.map .ofPath) = .ok separate
          ∧ separate.libraries.map (·.location) = paths.map .ofPath
          ∧ ∀ asked asked' : List String,
            ServesAlike tree (asked.foldl (LibraryIndex.request tree) joined)
              (asked'.foldl (LibraryIndex.request tree) separate))
    ∧ ((∃ path ∈ paths, ¬ (Location.ofPath path).Opens tree) →
      ∃ earlier path later error, paths = earlier ++ path :: later
        ∧ (∀ other ∈ earlier, (Location.ofPath other).Opens tree)
        ∧ ClassSource.openLocation tree (.ofPath path) = .error error
        ∧ ∀ index : LibraryIndex, index.isRegistered (.ofPaths paths) = false →
          index.register tree (.ofPaths paths) none = .error error
            ∧ index.perform (.register tree (.ofPaths paths) none) = index) := by
  have hopens : ∀ entries : List (String × SingleSource),
      (∀ entry ∈ entries, SingleSource.openPath tree entry.1 = .ok entry.2) →
        ∀ path ∈ entries.map (·.1), (Location.ofPath path).Opens tree := by
    intro entries hopen path hpath
    obtain ⟨entry, hentry, rfl⟩ := List.mem_map.1 hpath
    refine ⟨.single entry.2, ?_⟩
    rw [ClassSource.openLocation_ofPath, hopen entry hentry]
    rfl
  rcases exists_pairs_or_error (SingleSource.openPath tree) paths with
    ⟨entries, rfl, hopen⟩ | ⟨entries, path, later, error, rfl, hopen, herror⟩
  · constructor
    · intro hparts _
      have hdistinct := nodup_keys_of_parts hparts
      obtain ⟨hlibraries, hseparate⟩ := coherent_foldl_add_entries hdistinct
      refine ⟨.ofEntries entries, empty.add (.ofEntries entries),
        (entries.map Library.ofEntry).foldl LibraryIndex.add empty,
        register_of_openAt rfl (Library.openAt_ofPaths hpaths hopen), rfl, rfl, ?_, ?_,
        fun asked asked' => ?_⟩
      · rw [List.map_map]
        exact registerAll_entries hopen hdistinct fun _ _ => rfl
      · rw [hlibraries, List.map_map, List.map_map]
        rfl
      · have hasked := (coherent_add_ofEntries entries).servesAlike_request tree asked
        have hasked' := hseparate.servesAlike_request tree asked'
        exact hasked.symm.trans ((servesAlike_entries tree hdistinct).trans hasked')
    · rintro ⟨path, hpath, hfails⟩
      exact absurd (hopens entries hopen path hpath) hfails
  · have hrefused : ClassSource.openLocation tree (.ofPath path) = .error error := by
      rw [ClassSource.openLocation_ofPath, herror]
      rfl
    constructor
    · intro _ hall
      obtain ⟨source, hsource⟩ := hall path (List.mem_append_right _ List.mem_cons_self)
      rw [hrefused] at hsource
      cases hsource
    · intro _
      refine ⟨entries.map (·.1), path, later, error, rfl, hopens entries hopen, hrefused,
        fun index hnew => ?_⟩
      have hregister := register_ofPaths_eq_error hpaths hopen herror hnew
      exact ⟨hregister, by rw [perform, hregister]⟩

/-- A class file that declares `app.Main` with some access flags and nothing else. -/
def mainFile (flags : Bytes) : Bytes :=
  [0xCA, 0xFE, 0xBA, 0xBE, 0x00, 0x00, 0x00, 0x34, 0x00, 0x03, 0x07, 0x00, 0x02, 0x01, 0x00, 0x08,
    0x61, 0x70, 0x70, 0x2F, 0x4D, 0x61, 0x69, 0x6E] ++ flags
  ++ [0x00, 0x01, 0x00, 0x00, 0x00, 0x00, 0x00, 0x00, 0x00, 0x00, 0x00, 0x00]

/-- The entries of an archive with the interface `app.Main` and the unreadable `dep.Helper`. -/
def listedEntries : List ArchiveEntry :=
  [⟨"app/Main.class", mainFile [0x06, 0x01], false⟩, ⟨"dep/Helper.class", [], true⟩]

/-- The tree with this archive and a directory in which `app.Main` is a class. -/
def listedTree : FileTree :=
  ⟨[(["classes"], .directory), (["classes", "app"], .directory),
    (["classes", "app", "Main.class"], .file (.plain (mainFile [0x00, 0x21]))),
    (["dep.jar"], .file (.archive listedEntries))], []⟩

theorem openLocation_classes :
    ClassSource.openLocation listedTree (.ofPath "classes")
      = .ok (.single (.directory "classes" ["app.Main"])) := by
  rfl

theorem openLocation_gone :
    ClassSource.openLocation listedTree (.ofPath "gone.jar") = .error (.notFound "gone.jar") := by
  rfl

/-- A directory and an archive that overlap serve alike, listed or registered one by one; a list
with a missing archive fails like the archive. -/
theorem listed_paths_equal_entries :
    (∃ library joined separate,
      empty.register listedTree (.ofPaths ["classes", "dep.jar"]) none = .ok (library, joined)
        ∧ empty.registerAll listedTree [.ofPath "classes", .ofPath "dep.jar"] = .ok separate
        ∧ ServesAlike listedTree joined separate)
      ∧ empty.register listedTree (.ofPaths ["classes", "gone.jar"]) none
        = .error (.notFound "gone.jar") := by
  have hopens : ∀ path ∈ ["classes", "dep.jar"], (Location.ofPath path).Opens listedTree := by
    intro path hpath
    rcases List.mem_pair.1 hpath with rfl | rfl
    · exact ⟨_, openLocation_classes⟩
    · exact ⟨.single (.archive listedEntries), by decide +kernel⟩
  constructor
  · obtain ⟨library, joined, separate, hjoined, _, _, hseparate, _, halike⟩ :=
      (path_list_equals_entries listedTree ["classes", "dep.jar"] (by decide)).1
        (by decide +kernel) hopens
    exact ⟨library, joined, separate, hjoined, hseparate, halike [] []⟩
  · have hgone : ¬ (Location.ofPath "gone.jar").Opens listedTree := by
      rintro ⟨source, hsource⟩
      rw [openLocation_gone] at hsource
      cases hsource
    obtain ⟨earlier, path, later, error, hlist, _, herror, hrefused⟩ :=
      (path_list_equals_entries listedTree ["classes", "gone.jar"] (by decide)).2
        ⟨"gone.jar", by decide, hgone⟩
    have hpath : path ∈ ["classes", "gone.jar"] := by
      rw [hlist]
      exact List.mem_append_right _ List.mem_cons_self
    rcases List.mem_pair.1 hpath with rfl | rfl
    · rw [openLocation_classes] at herror
      cases herror
    · rw [openLocation_gone] at herror
      cases herror
      exact (hrefused empty rfl).1

end LibraryIndex

end ClassAtlas
