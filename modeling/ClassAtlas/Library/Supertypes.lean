import ClassAtlas.Library.Index

/-!
# The hierarchy of an index

The classes of an index form a type hierarchy: the supertypes of a name are those
of the class that a look-up with the standard packages finds. Only names of
served classes, with or without their package, have supertypes.
-/

namespace ClassAtlas

open Text

theorem Table.mem_keys_of_get?_ne_none {κ ν : Type} [DecidableEq κ] {table : Table κ ν} {key : κ}
    (h : table.get? key ≠ none) : key ∈ table.keys := by
  unfold Table.get? at h
  cases hfind : table.entries.find? (·.1 = key) with
  | none => simp [hfind] at h
  | some entry =>
    have hkey : entry.1 = key := by simpa using List.find?_some hfind
    exact List.mem_map.2 ⟨entry, List.mem_of_find?_eq_some hfind, hkey⟩

namespace LibraryIndex

/-- A candidate name is the written name or that name inside a package. -/
theorem candidateNames_cases {name current candidate : String} {defaults : List String}
    (h : candidate ∈ candidateNames name current defaults) :
    candidate = name ∨ (isQualified name = false ∧ ∃ package, candidate = package ++ "." ++ name) := by
  unfold candidateNames at h
  split at h
  · exact Or.inl (List.mem_singleton.1 h)
  · next hq =>
    rw [List.mem_eraseDups, List.mem_cons] at h
    rcases h with h | h
    · exact Or.inl h
    · obtain ⟨package, _, hp⟩ := List.mem_map.1 h
      exact Or.inr ⟨by simpa using hq, package, hp.symm⟩

/-- Whatever can be looked up is among the names of the index. -/
theorem mem_lookupNames_of_served? {index : LibraryIndex} {name current : String}
    {defaults : List String} (h : index.served? name current defaults ≠ none) :
    name ∈ index.lookupNames := by
  unfold served? at h
  obtain ⟨found, hfound⟩ := Option.ne_none_iff_exists'.1 h
  obtain ⟨candidate, hmem, hsome⟩ := List.exists_of_findSome?_eq_some hfound
  have howner : index.owners.get? candidate ≠ none := by
    intro hnone
    simp [owner?, hnone] at hsome
  have hkey := Table.mem_keys_of_get?_ne_none howner
  unfold lookupNames
  rcases candidateNames_cases hmem with rfl | ⟨hq, package, rfl⟩
  · exact List.mem_append_left _ hkey
  · exact List.mem_append_right _ (List.mem_map.2 ⟨_, hkey, simpleName_member hq⟩)

/-- The supertypes of the class that a name leads to. -/
def supertypes (tree : FileTree) (index : LibraryIndex) (name : String) : List String :=
  match index.lookup? tree name with
  | some description => description.supertypes
  | none => []

theorem mem_lookupNames_of_supertypes {tree : FileTree} {index : LibraryIndex} {name : String}
    (h : index.supertypes tree name ≠ []) : name ∈ index.lookupNames := by
  have hserved : index.served? name "" standardPackages ≠ none := by
    intro hnone
    simp [supertypes, lookup?, lookupIn?, hnone] at h
  exact mem_lookupNames_of_served? hserved

/-- The hierarchy formed by the classes of an index. -/
def hierarchy (tree : FileTree) (index : LibraryIndex) : Hierarchy where
  supertypes := index.supertypes tree
  names := index.lookupNames
  complete := fun _ h => mem_lookupNames_of_supertypes h

end LibraryIndex

end ClassAtlas
