import ClassAtlas.Proofs.Engine.Runs
import Mathlib.Data.List.Find
import Mathlib.Data.List.Induction
import Mathlib.Data.List.Nodup

/-!
# Who serves a class

The index keeps its table of serving libraries up to date with every library that
is registered or removed. Whatever the order of these calls, a class is served by
the earliest registered library that enumerates it, and removing a library tells
exactly the classes that are served by another library, or by none, from then on.
-/

namespace ClassAtlas

/-! ## The classes of one library -/

namespace Table

variable {κ ν : Type} [DecidableEq κ]

/-- What is found after some pairs have been written was found before or is one of them. -/
theorem mem_of_get?_foldl_insert {pairs : List (κ × ν)} {table : Table κ ν} {key : κ} {value : ν}
    (h : (pairs.foldl (fun table pair => table.insert pair.1 pair.2) table).get? key
      = some value) :
    (key, value) ∈ pairs ∨ table.get? key = some value := by
  induction pairs generalizing table with
  | nil => exact .inr h
  | cons pair pairs ih =>
    rcases ih h with hmem | hget
    · exact .inl (List.mem_cons_of_mem _ hmem)
    · rw [get?_insert] at hget
      split at hget
      · next heq =>
        cases hget
        exact .inl (by rw [heq]; exact List.mem_cons_self)
      · exact .inr hget

/-- Keys that have been written, or were there before, have a value. -/
theorem get?_foldl_insert_ne_none {pairs : List (κ × ν)} {table : Table κ ν} {key : κ}
    (h : key ∈ pairs.map (·.1) ∨ table.get? key ≠ none) :
    (pairs.foldl (fun table pair => table.insert pair.1 pair.2) table).get? key ≠ none := by
  induction pairs generalizing table with
  | nil => simpa using h
  | cons pair pairs ih =>
    refine ih ?_
    rw [get?_insert]
    by_cases heq : key = pair.1
    · exact .inr (by simp [heq])
    · rw [if_neg heq]
      exact h.imp_left fun hmem => (List.mem_cons.1 hmem).resolve_left heq

/-- A value that is given to some keys goes to those without one. -/
theorem get?_foldl_insertNew {keys : List κ} {table : Table κ ν} {value : ν} {key : κ} :
    (keys.foldl (fun table key => table.insertNew key value) table).get? key
      = if key ∈ keys ∧ table.get? key = none then some value else table.get? key := by
  induction keys generalizing table with
  | nil => simp
  | cons first keys ih =>
    rw [List.foldl_cons, ih, get?_insertNew]
    by_cases heq : key = first
    · subst heq
      by_cases hnone : table.get? key = none
      · simp [hnone]
      · simp [hnone]
    · simp [heq]

/-- Keys that fail the test are gone. -/
theorem get?_filterKeys (table : Table κ ν) (keep : κ → Bool) (key : κ) :
    (table.filterKeys keep).get? key = if keep key then table.get? key else none := by
  unfold get? filterKeys
  rw [List.find?_filter]
  by_cases hkeep : keep key = true
  · rw [if_pos hkeep]
    congr 2
    funext entry
    by_cases hentry : entry.1 = key
    · simp [hentry, hkeep]
    · simp [hentry]
  · rw [if_neg hkeep, Option.map_eq_none_iff, List.find?_eq_none]
    intro entry _ hentry
    simp only [decide_eq_true_eq] at hentry
    exact hkeep (by rw [← hentry.2]; exact hentry.1)

end Table

namespace Library

/-- The class table of a library leads from the enumerated names, and from no others, to the
number of a place where the name is enumerated. -/
structure Numbered (library : Library) : Prop where
  /-- A number belongs to the name that it is the place of. -/
  number_names : ∀ {name number}, library.table.get? name = some number →
    library.classNames[number]? = some name
  /-- Every enumerated name has a number. -/
  names_numbered : ∀ {name}, name ∈ library.classNames → library.table.get? name ≠ none

/-- The library holds exactly the classes it enumerates. -/
theorem Numbered.contains_eq {library : Library} (h : library.Numbered) (name : String) :
    library.contains name = library.classNames.contains name := by
  rw [Bool.eq_iff_iff, contains, Table.contains, Option.isSome_iff_ne_none, List.contains_iff_mem]
  constructor
  · intro hsome
    obtain ⟨number, hnumber⟩ := Option.ne_none_iff_exists'.1 hsome
    exact List.mem_of_getElem? (h.number_names hnumber)
  · exact h.names_numbered

/-- No two names share a number. -/
theorem Numbered.name_unique {library : Library} (h : library.Numbered) {first second : String}
    {number : Nat} (hfirst : library.table.get? first = some number)
    (hsecond : library.table.get? second = some number) : first = second :=
  Option.some.inj ((h.number_names hfirst).symm.trans (h.number_names hsecond))

/-- The class table of a new library belongs to its enumerated names. -/
theorem numbered_ofSource (location : Location) (sourceLocation : Option SourceLocation)
    (source : ClassSource) : (ofSource location sourceLocation source).Numbered where
  number_names := by
    intro name number h
    rcases Table.mem_of_get?_foldl_insert h with hmem | hempty
    · exact List.mem_zipIdx_iff_getElem?.1 hmem
    · cases hempty
  names_numbered := by
    intro name hmem
    refine Table.get?_foldl_insert_ne_none (.inl ?_)
    rw [List.zipIdx_map_fst]
    exact hmem

/-- An opened library has its class table in order and stands for the location that was opened. -/
theorem numbered_of_openAt {tree : FileTree} {location : Location}
    {sourceLocation : Option SourceLocation} {library : Library}
    (h : openAt tree location sourceLocation = .ok library) :
    library.Numbered ∧ library.key = location.key := by
  unfold openAt at h
  cases hopen : ClassSource.openLocation tree location with
  | error error =>
    rw [hopen] at h
    cases h
  | ok source =>
    rw [hopen] at h
    cases h
    exact ⟨numbered_ofSource location sourceLocation source, rfl⟩

section Request

variable (tree : FileTree) (library : Library) (qualified : String)

@[simp] theorem key_request : (library.request tree qualified).key = library.key := by
  unfold request
  split <;> rfl

@[simp] theorem classNames_request :
    (library.request tree qualified).classNames = library.classNames := by
  unfold request
  split <;> rfl

@[simp] theorem table_request : (library.request tree qualified).table = library.table := by
  unfold request
  split <;> rfl

/-- Asking for a class leaves the class table in order. -/
theorem numbered_request {library : Library} (h : library.Numbered) :
    (library.request tree qualified).Numbered where
  number_names := by
    rw [table_request, classNames_request]
    exact h.number_names
  names_numbered := by
    rw [table_request, classNames_request]
    exact h.names_numbered

end Request

end Library

/-! ## The serving libraries -/

namespace LibraryIndex

/-- The earliest of some libraries that enumerates a class. -/
def holder? (libraries : List Library) (name : String) : Option Library :=
  libraries.find? (·.classNames.contains name)

/-- No location is registered twice, and every class is served by the earliest library that
enumerates it. -/
structure Coherent (index : LibraryIndex) : Prop where
  /-- The locations are distinct. -/
  keys_distinct : (index.libraries.map Library.key).Nodup
  /-- The class tables belong to the enumerated names. -/
  libraries_numbered : ∀ library ∈ index.libraries, library.Numbered
  /-- The earliest library that enumerates a class serves it. -/
  serves_earliest : ∀ name,
    index.owners.get? name = (holder? index.libraries name).map Library.key

variable {index : LibraryIndex}

/-- The index without libraries is coherent. -/
theorem coherent_empty : empty.Coherent where
  keys_distinct := List.nodup_nil
  libraries_numbered := fun _ hmem => absurd hmem List.not_mem_nil
  serves_earliest := fun _ => rfl

/-- Of libraries at distinct locations, one is found at each location. -/
theorem Coherent.libraryAt?_key (h : index.Coherent) {library : Library}
    (hmem : library ∈ index.libraries) : index.libraryAt? library.key = some library := by
  unfold libraryAt?
  cases hfind : index.libraries.find? (·.key = library.key) with
  | none =>
    have hnone := List.find?_eq_none.1 hfind library hmem
    simp at hnone
  | some found =>
    have hkey : found.key = library.key := by simpa using List.find?_some hfind
    rw [List.inj_on_of_nodup_map h.keys_distinct (List.mem_of_find?_eq_some hfind) hmem hkey]

/-- The serving library is the earliest that enumerates the class. -/
theorem Coherent.owner?_eq (h : index.Coherent) (name : String) :
    index.owner? name = holder? index.libraries name := by
  unfold owner?
  rw [h.serves_earliest]
  cases hfind : holder? index.libraries name with
  | none => rfl
  | some library => exact h.libraryAt?_key (List.mem_of_find?_eq_some hfind)

/-- A name is served when there is a library that serves it. -/
theorem Coherent.contains_eq (h : index.Coherent) (name : String) :
    index.contains name = (index.owner? name).isSome := by
  rw [contains, Table.contains, h.serves_earliest, h.owner?_eq, Option.isSome_map]

/-- No library serves a class exactly when no library enumerates it. -/
theorem Coherent.get?_eq_none_iff (h : index.Coherent) {name : String} :
    index.owners.get? name = none ↔ ∀ library ∈ index.libraries, name ∉ library.classNames := by
  rw [h.serves_earliest, Option.map_eq_none_iff, holder?, List.find?_eq_none]
  simp only [List.contains_iff_mem]

/-! ### Registering -/

@[simp] theorem libraries_add (library : Library) :
    (index.add library).libraries = index.libraries ++ [library] := rfl

/-- An added library serves those of its classes that nobody served, and all others are served as
before. -/
theorem get?_owners_add (library : Library) (name : String) :
    (index.add library).owners.get? name
      = if name ∈ library.classNames ∧ index.owners.get? name = none then some library.key
        else index.owners.get? name :=
  Table.get?_foldl_insertNew

/-- Adding a library at a new location keeps an index coherent. -/
theorem Coherent.add (h : index.Coherent) {library : Library} (hnumbered : library.Numbered)
    (hnew : index.libraryAt? library.key = none) : (index.add library).Coherent where
  keys_distinct := by
    have hfresh : library.key ∉ index.libraries.map Library.key := by
      intro hmem
      obtain ⟨other, hother, hkey⟩ := List.mem_map.1 hmem
      have hnone := List.find?_eq_none.1 hnew other hother
      simp [hkey] at hnone
    rw [libraries_add, List.map_append, List.map_singleton, List.nodup_append]
    refine ⟨h.keys_distinct, List.nodup_singleton _, ?_⟩
    intro key hkey other hother heq
    rw [List.mem_singleton] at hother
    exact hfresh (by rw [← hother, ← heq]; exact hkey)
  libraries_numbered := by
    intro other hother
    rcases List.mem_append.1 hother with hmem | hmem
    · exact h.libraries_numbered other hmem
    · rw [List.mem_singleton.1 hmem]
      exact hnumbered
  serves_earliest := by
    intro name
    rw [get?_owners_add, libraries_add, h.serves_earliest, holder?, holder?, List.find?_append]
    cases hfind : index.libraries.find? (·.classNames.contains name) with
    | some other => simp
    | none =>
      by_cases hmem : name ∈ library.classNames
      · simp [hmem]
      · simp [hmem]

/-! ### Removing -/

section HandOver

variable (removed : LocationKey) (others : List Library)

/-- After a name has been handed over, the removed library does not serve it. -/
theorem get?_handOver (affected : List String) (owners : Table String LocationKey)
    (name other : String) :
    (handOver removed others (affected, owners) name).2.get? other
      = if other = name ∧ owners.get? name = some removed
        then (others.find? (·.contains name)).map Library.key else owners.get? other := by
  unfold handOver
  dsimp only
  by_cases hserved : owners.get? name = some removed
  · rw [if_pos hserved]
    cases hfind : others.find? (·.contains name) with
    | some successor => simp [hserved, Table.get?_insert]
    | none => simp [hserved, Table.get?_erase]
  · rw [if_neg hserved]
    simp [hserved]

/-- A name is noted when the removed library served it. -/
theorem affected_handOver (affected : List String) (owners : Table String LocationKey)
    (name : String) :
    (handOver removed others (affected, owners) name).1
      = if owners.get? name = some removed then name :: affected else affected := by
  unfold handOver
  dsimp only
  by_cases hserved : owners.get? name = some removed
  · rw [if_pos hserved, if_pos hserved]
    cases others.find? (·.contains name) <;> rfl
  · rw [if_neg hserved, if_neg hserved]

variable {removed others} (hothers : ∀ library ∈ others, library.key ≠ removed)

include hothers

/-- The libraries that take over are others than the removed one. -/
theorem successor_ne (name : String) :
    (others.find? (·.contains name)).map Library.key ≠ some removed := by
  intro h
  obtain ⟨successor, hfind, hkey⟩ := Option.map_eq_some_iff.1 h
  exact hothers successor (List.mem_of_find?_eq_some hfind) hkey

/-- What the owners are after some names have been handed over. -/
theorem get?_foldl_handOver {names : List String} {affected : List String}
    {owners : Table String LocationKey} {name : String} :
    (names.foldl (handOver removed others) (affected, owners)).2.get? name
      = if name ∈ names ∧ owners.get? name = some removed
        then (others.find? (·.contains name)).map Library.key else owners.get? name := by
  induction names generalizing affected owners with
  | nil => simp
  | cons first names ih =>
    have hstep := get?_handOver removed others affected owners first name
    have hne := successor_ne hothers first
    rw [List.foldl_cons]
    generalize handOver removed others (affected, owners) first = state at hstep
    obtain ⟨noted, after⟩ := state
    rw [ih]
    simp only at hstep
    by_cases heq : name = first
    · subst heq
      by_cases hserved : owners.get? name = some removed
      · simp only [hserved, and_self, if_true] at hstep
        simp [hstep, hserved, hne]
      · simp only [hserved, and_false, if_false] at hstep
        simp [hstep, hserved]
    · simp only [heq, false_and, if_false] at hstep
      simp [hstep, heq]

/-- The noted names are those that the removed library served, each once, in order. -/
theorem affected_foldl_handOver {names : List String} {affected : List String}
    {owners : Table String LocationKey} :
    (names.foldl (handOver removed others) (affected, owners)).1.reverse
      = affected.reverse ++ (names.filter (owners.get? · = some removed)).eraseDups := by
  induction names generalizing affected owners with
  | nil => simp
  | cons first names ih =>
    have hget := get?_handOver removed others affected owners first
    have hnoted := affected_handOver removed others affected owners first
    have hne := successor_ne hothers first
    rw [List.foldl_cons]
    generalize handOver removed others (affected, owners) first = state at hget hnoted
    obtain ⟨noted, after⟩ := state
    rw [ih]
    simp only at hget hnoted
    by_cases hserved : owners.get? first = some removed
    · have hafter : (fun name => decide (after.get? name = some removed))
          = fun name => !name == first && decide (owners.get? name = some removed) := by
        funext name
        rw [hget]
        by_cases heq : name = first
        · simp [heq, hserved, hne]
        · simp [heq]
      rw [hnoted, if_pos hserved, hafter, List.filter_cons_of_pos (by simp [hserved]),
        List.eraseDups_cons, List.reverse_cons, List.append_assoc, List.singleton_append,
        List.filter_filter]
    · have hafter : after.get? = owners.get? := by
        funext name
        rw [hget, if_neg (by simp [hserved])]
      rw [hnoted, if_neg hserved, hafter, List.filter_cons_of_neg (by simp [hserved])]

end HandOver

/-- A search finds the same among the elements that are kept when what it finds is kept. -/
theorem find?_filter_of_kept {α : Type} {test keep : α → Bool} {items : List α}
    (h : ∀ item, items.find? test = some item → keep item = true) :
    (items.filter keep).find? test = items.find? test := by
  induction items with
  | nil => rfl
  | cons first items ih =>
    by_cases htest : test first = true
    · have hkeep : keep first = true := h first (List.find?_cons_of_pos htest)
      rw [List.filter_cons_of_pos hkeep, List.find?_cons_of_pos htest,
        List.find?_cons_of_pos htest]
    · rw [List.find?_cons_of_neg htest] at h ⊢
      rw [← ih h]
      by_cases hkeep : keep first = true
      · rw [List.filter_cons_of_pos hkeep, List.find?_cons_of_neg htest]
      · rw [List.filter_cons_of_neg hkeep]

/-- Looking into the class tables finds the earliest library that enumerates a class. -/
theorem find?_contains {libraries : List Library} (h : ∀ library ∈ libraries, library.Numbered)
    (name : String) : libraries.find? (·.contains name) = holder? libraries name :=
  List.find?_congr fun library hmem => (h library hmem).contains_eq name

section Remove

variable {location : Location} {removed : Library}

/-- Removing a location that is not registered does nothing. -/
theorem remove_of_unregistered (hat : index.libraryAt? location.key = none) :
    index.remove location = ([], index) := by
  rw [remove, hat]

/-- The library that is found at a location is there. -/
theorem key_of_libraryAt? {key : LocationKey} (hat : index.libraryAt? key = some removed) :
    removed.key = key := by
  simpa using List.find?_some hat

/-- Removing a registered location leaves the libraries at other locations, in order. -/
theorem libraries_remove (hat : index.libraryAt? location.key = some removed) :
    (index.remove location).2.libraries = index.libraries.filter (·.key ≠ location.key) := by
  rw [remove, hat]

/-- Removing keeps exactly the libraries at other locations. -/
theorem libraries_remove_eq (location : Location) :
    (index.remove location).2.libraries = index.libraries.filter (·.key ≠ location.key) := by
  cases hat : index.libraryAt? location.key with
  | some removed => exact libraries_remove hat
  | none =>
    rw [remove_of_unregistered hat, eq_comm, List.filter_eq_self]
    intro library hmem
    simpa using List.find?_eq_none.1 hat library hmem

/-- The libraries that stay are at other locations. -/
theorem key_ne_of_mem_filter {key : LocationKey} {library : Library}
    (hmem : library ∈ index.libraries.filter (·.key ≠ key)) : library.key ≠ key := by
  simpa using (List.mem_filter.1 hmem).2

/-- The classes of the removed library go to the earliest of the others that holds them. -/
theorem get?_owners_remove (hat : index.libraryAt? location.key = some removed) (name : String) :
    (index.remove location).2.owners.get? name
      = if name ∈ removed.classNames ∧ index.owners.get? name = some location.key
        then ((index.libraries.filter (·.key ≠ location.key)).find? (·.contains name)).map
          Library.key
        else index.owners.get? name := by
  rw [remove, hat]
  simp only [key_of_libraryAt? hat]
  exact get?_foldl_handOver fun library hmem => key_ne_of_mem_filter hmem

/-- The classes that are told are those that the removed library served. -/
theorem names_remove (hat : index.libraryAt? location.key = some removed) :
    (index.remove location).1
      = (removed.classNames.filter (index.owners.get? · = some location.key)).eraseDups := by
  rw [remove, hat]
  simp only [key_of_libraryAt? hat]
  rw [affected_foldl_handOver fun library hmem => key_ne_of_mem_filter hmem]
  rfl

/-- The removed library is the only one at its location. -/
theorem Coherent.eq_removed (h : index.Coherent) (hat : index.libraryAt? location.key = some removed)
    {library : Library} (hmem : library ∈ index.libraries) (hkey : library.key = location.key) :
    library = removed := by
  have hfound := h.libraryAt?_key hmem
  rw [hkey, hat] at hfound
  exact (Option.some.inj hfound).symm

/-- A class served by the removed library is one of its own. -/
theorem Coherent.mem_classNames (h : index.Coherent)
    (hat : index.libraryAt? location.key = some removed) {name : String}
    (hserved : index.owners.get? name = some location.key) : name ∈ removed.classNames := by
  rw [h.serves_earliest] at hserved
  obtain ⟨library, hfind, hkey⟩ := Option.map_eq_some_iff.1 hserved
  rw [← h.eq_removed hat (List.mem_of_find?_eq_some hfind) hkey]
  simpa using List.find?_some hfind

/-- Where another library serves a class, the earliest holder stays. -/
theorem Coherent.holder?_filter (h : index.Coherent) {name : String}
    (hserved : index.owners.get? name ≠ some location.key) :
    holder? (index.libraries.filter (·.key ≠ location.key)) name
      = holder? index.libraries name := by
  refine find?_filter_of_kept fun library hfind => ?_
  rw [h.serves_earliest, holder?, hfind] at hserved
  simpa using hserved

/-- Removing a location keeps an index coherent: the classes of the removed library go to the
earliest of the others that enumerates them. -/
theorem Coherent.remove (h : index.Coherent) (location : Location) :
    (index.remove location).2.Coherent := by
  cases hat : index.libraryAt? location.key with
  | none =>
    rw [remove_of_unregistered hat]
    exact h
  | some removed =>
    have hnumbered : ∀ library ∈ index.libraries.filter (·.key ≠ location.key),
        library.Numbered :=
      fun library hmem => h.libraries_numbered library (List.mem_of_mem_filter hmem)
    refine ⟨?_, ?_, fun name => ?_⟩
    · rw [libraries_remove hat]
      exact h.keys_distinct.sublist (List.filter_sublist.map _)
    · rw [libraries_remove hat]
      exact hnumbered
    · rw [get?_owners_remove hat, libraries_remove hat, find?_contains hnumbered]
      by_cases hserved : index.owners.get? name = some location.key
      · rw [if_pos ⟨h.mem_classNames hat hserved, hserved⟩]
      · rw [if_neg fun hboth => hserved hboth.2, h.holder?_filter hserved, h.serves_earliest]

end Remove

/-! ### Asking for classes -/

/-- Asking one library for a class keeps an index coherent. -/
theorem Coherent.requestFrom (h : index.Coherent) (tree : FileTree) (key : LocationKey)
    (qualified : String) : (index.requestFrom tree key qualified).Coherent := by
  have hkey : ∀ library : Library,
      (if library.key = key then library.request tree qualified else library).key
        = library.key := by
    intro library
    split
    · rw [Library.key_request]
    · rfl
  have hnames : ∀ library : Library,
      (if library.key = key then library.request tree qualified else library).classNames
        = library.classNames := by
    intro library
    split
    · rw [Library.classNames_request]
    · rfl
  refine ⟨?_, ?_, fun name => ?_⟩
  · simp only [LibraryIndex.requestFrom, List.map_map, Function.comp_def, hkey]
    exact h.keys_distinct
  · intro library hmem
    obtain ⟨other, hother, rfl⟩ := List.mem_map.1 hmem
    split
    · exact Library.numbered_request tree qualified (h.libraries_numbered other hother)
    · exact h.libraries_numbered other hother
  · simp only [LibraryIndex.requestFrom, holder?, List.find?_map, Function.comp_def, hnames,
      Option.map_map, hkey]
    exact h.serves_earliest name

/-- Looking a written name up keeps an index coherent. -/
theorem Coherent.requestIn (h : index.Coherent) (tree : FileTree) (name current : String)
    (defaults : List String) : (index.requestIn tree name current defaults).Coherent := by
  unfold LibraryIndex.requestIn
  split
  · exact h.requestFrom tree _ _
  · exact h

/-! ## What removing tells -/

/-- Each name stands once in a list without repetitions. -/
theorem nodup_eraseDups : (names : List String) → names.eraseDups.Nodup
  | [] => List.nodup_nil
  | first :: names => by
    rw [List.eraseDups_cons, List.nodup_cons, List.mem_eraseDups]
    exact ⟨by simp, nodup_eraseDups (names.filter fun other => !other == first)⟩
termination_by names => names.length
decreasing_by exact Nat.lt_succ_of_le (List.length_filter_le _ _)

/-- Choosing names and dropping repetitions can be done in either order. -/
theorem eraseDups_filter (keep : String → Bool) :
    (names : List String) → (names.filter keep).eraseDups = names.eraseDups.filter keep
  | [] => rfl
  | first :: names => by
    have ih := eraseDups_filter keep (names.filter fun other => !other == first)
    rw [List.filter_filter] at ih
    rw [List.eraseDups_cons]
    by_cases hkeep : keep first = true
    · rw [List.filter_cons_of_pos hkeep, List.eraseDups_cons, List.filter_cons_of_pos hkeep,
        List.filter_filter, ← ih]
      simp only [Bool.and_comm]
    · have hsame : names.filter keep
          = names.filter fun other => keep other && !other == first := by
        refine List.filter_congr fun other _ => ?_
        by_cases heq : other = first
        · simp [heq, hkeep]
        · simp [heq]
      rw [List.filter_cons_of_neg hkeep, List.filter_cons_of_neg hkeep, ← ih, hsame]
termination_by names => names.length
decreasing_by exact Nat.lt_succ_of_le (List.length_filter_le _ _)

/-- Removing a location tells exactly the classes with another serving library, or none,
from then on: each once, in the order in which the removed library enumerates them. -/
structure TellsChanges (index : LibraryIndex) (location : Location) : Prop where
  /-- No class is told twice. -/
  told_once : (index.remove location).1.Nodup
  /-- A class is told when its serving library is not the same afterwards. -/
  told_iff : ∀ name, name ∈ (index.remove location).1
    ↔ (index.remove location).2.owner? name ≠ index.owner? name
  /-- The order is that of the removed library. -/
  told_in_order : ∀ removed, index.libraryAt? location.key = some removed →
    (index.remove location).1.Sublist removed.classNames.eraseDups
  /-- Nothing is told when nothing is removed. -/
  told_nothing : index.libraryAt? location.key = none → index.remove location = ([], index)

/-- The serving library changes exactly for the classes that the removed library served. -/
theorem Coherent.owner?_remove_ne_iff (h : index.Coherent) {location : Location}
    {removed : Library} (hat : index.libraryAt? location.key = some removed) (name : String) :
    (index.remove location).2.owner? name ≠ index.owner? name
      ↔ index.owners.get? name = some location.key := by
  rw [(h.remove location).owner?_eq, h.owner?_eq, libraries_remove hat]
  constructor
  · intro hne
    by_contra hserved
    exact hne (h.holder?_filter hserved)
  · intro hserved heq
    rw [h.serves_earliest, ← heq] at hserved
    obtain ⟨library, hfind, hkey⟩ := Option.map_eq_some_iff.1 hserved
    exact key_ne_of_mem_filter (List.mem_of_find?_eq_some hfind) hkey

/-- Removing a location from a coherent index tells exactly the classes whose serving library
changes. -/
theorem Coherent.tellsChanges (h : index.Coherent) (location : Location) :
    index.TellsChanges location := by
  cases hat : index.libraryAt? location.key with
  | none =>
    have hremove := remove_of_unregistered hat
    refine ⟨?_, ?_, ?_, fun _ => hremove⟩
    · rw [hremove]
      exact List.nodup_nil
    · simp [hremove]
    · intro removed hsome
      rw [hat] at hsome
      cases hsome
  | some removed =>
    refine ⟨?_, fun name => ?_, ?_, ?_⟩
    · rw [names_remove hat]
      exact nodup_eraseDups _
    · rw [h.owner?_remove_ne_iff hat, names_remove hat, List.mem_eraseDups, List.mem_filter]
      simp only [decide_eq_true_eq]
      exact ⟨fun hboth => hboth.2, fun hserved => ⟨h.mem_classNames hat hserved, hserved⟩⟩
    · intro found hfound
      rw [hat] at hfound
      cases hfound
      rw [names_remove hat, eraseDups_filter]
      exact List.filter_sublist
    · intro hnone
      rw [hat] at hnone
      cases hnone

/-! ## Runs -/

/-- A call on an index, with the files as they are at the time of the call. -/
inductive Call where
  /-- Registers a location. -/
  | register (tree : FileTree) (location : Location) (sourceLocation : Option SourceLocation)
  /-- Removes a location. -/
  | remove (location : Location)
  /-- Looks a written name up, which asks a library for a class. -/
  | request (tree : FileTree) (name currentPackage : String) (defaultPackages : List String)

/-- The index after a call. A registration that fails changes nothing. -/
def perform (index : LibraryIndex) : Call → LibraryIndex
  | .register tree location sourceLocation =>
    match index.register tree location sourceLocation with
    | .ok (_, index) => index
    | .error _ => index
  | .remove location => (index.remove location).2
  | .request tree name currentPackage defaultPackages =>
    index.requestIn tree name currentPackage defaultPackages

/-- The index after some calls on the index without libraries. -/
def ofCalls (calls : List Call) : LibraryIndex :=
  calls.foldl perform empty

/-- A registration succeeds exactly for a new location that can be opened, and the opened
library is added then. -/
theorem register_eq_ok_iff {tree : FileTree} {location : Location}
    {sourceLocation : Option SourceLocation} {library : Library} {after : LibraryIndex} :
    index.register tree location sourceLocation = .ok (library, after)
      ↔ index.isRegistered location = false
        ∧ Library.openAt tree location sourceLocation = .ok library
        ∧ after = index.add library := by
  unfold register
  split
  · next hregistered => simp [hregistered]
  · next hnew =>
    cases Library.openAt tree location sourceLocation with
    | error error => simp
    | ok opened =>
      simp only [hnew, Except.ok.injEq, Prod.mk.injEq, true_and]
      exact and_congr_right fun hsame => by rw [hsame, eq_comm]

/-- A successful registration keeps an index coherent. -/
theorem Coherent.register (h : index.Coherent) {tree : FileTree} {location : Location}
    {sourceLocation : Option SourceLocation} {library : Library} {after : LibraryIndex}
    (hregister : index.register tree location sourceLocation = .ok (library, after)) :
    after.Coherent := by
  obtain ⟨hnew, hopen, rfl⟩ := register_eq_ok_iff.1 hregister
  obtain ⟨hnumbered, hkey⟩ := Library.numbered_of_openAt hopen
  refine h.add hnumbered ?_
  rw [hkey]
  simpa [isRegistered] using hnew

/-- Every call keeps an index coherent. -/
theorem Coherent.perform (h : index.Coherent) (call : Call) : (index.perform call).Coherent := by
  cases call with
  | register tree location sourceLocation =>
    rw [LibraryIndex.perform]
    split
    · next hregister => exact h.register hregister
    · exact h
  | remove location => exact h.remove location
  | request tree name currentPackage defaultPackages =>
    exact h.requestIn tree name currentPackage defaultPackages

/-- Every index that calls lead to is coherent. -/
theorem coherent_ofCalls (calls : List Call) : (ofCalls calls).Coherent := by
  unfold ofCalls
  induction calls using List.reverseRecOn with
  | nil => exact coherent_empty
  | append_singleton calls call ih =>
    rw [List.foldl_append]
    exact ih.perform call

/-- Two indices with the same libraries in the same order, of which the same serve each
class. -/
def Agrees (first second : LibraryIndex) : Prop :=
  first.libraries = second.libraries
    ∧ ∀ name, first.owners.get? name = second.owners.get? name

/-- Opened libraries at distinct locations can be added one after the other. -/
theorem coherent_foldl_add {libraries : List Library}
    (hkeys : (libraries.map Library.key).Nodup)
    (hnumbered : ∀ library ∈ libraries, library.Numbered) :
    (libraries.foldl LibraryIndex.add empty).libraries = libraries
      ∧ (libraries.foldl LibraryIndex.add empty).Coherent := by
  induction libraries using List.reverseRecOn with
  | nil => exact ⟨rfl, coherent_empty⟩
  | append_singleton libraries library ih =>
    rw [List.map_append, List.map_singleton, List.nodup_append] at hkeys
    obtain ⟨hsame, hcoherent⟩ :=
      ih hkeys.1 fun other hother => hnumbered other (List.mem_append_left _ hother)
    rw [List.foldl_append, List.foldl_cons, List.foldl_nil]
    refine ⟨by rw [libraries_add, hsame], hcoherent.add ?_ ?_⟩
    · exact hnumbered library (List.mem_append_right _ (List.mem_singleton_self library))
    · rw [libraryAt?, hsame, List.find?_eq_none]
      intro other hother heq
      exact hkeys.2.2 _ (List.mem_map_of_mem hother) _ (List.mem_singleton_self _) (by simpa using heq)

/-- A coherent index agrees with the one to which only its libraries were ever added. -/
theorem Coherent.agrees_foldl_add (h : index.Coherent) :
    index.Agrees (index.libraries.foldl LibraryIndex.add empty) := by
  obtain ⟨hsame, hcoherent⟩ := coherent_foldl_add h.keys_distinct h.libraries_numbered
  refine ⟨hsame.symm, fun name => ?_⟩
  rw [hcoherent.serves_earliest, hsame, h.serves_earliest]

end LibraryIndex

end ClassAtlas
