import ClassAtlas.Library.PackageTree
import ClassAtlas.Proofs.Text.Splitting
import Mathlib.Data.List.Induction
import Mathlib.Data.List.Pairwise
import Mathlib.Data.String.Basic

/-!
# What a package tree holds

A package tree is described by its leaves, which are the paths of its classes, each
with its slot. On a well-formed tree, where segments increase along a level and no
package is empty, finding a node and adding a class are operations on the leaves: a
path leads to a package when it begins the path of a leaf, and a class is added when
its path neither begins nor continues the path of a leaf. Names that are added one
after the other therefore come down to a list of names that do not begin one another.
-/

namespace ClassAtlas

open Text

namespace PackageTree

variable {α : Type} {tree children rest : PackageTree α} {segment own : String}
  {path others : List String} {slot : α}

/-! ## Leaves -/

/-- The segments of a level. -/
def level : PackageTree α → List String
  | nil => []
  | leaf segment _ rest => segment :: level rest
  | package segment _ rest => segment :: level rest

/-- The classes with their paths, in tree order. -/
def leaves : PackageTree α → List (List String × α)
  | nil => []
  | leaf segment slot rest => ([segment], slot) :: leaves rest
  | package segment children rest =>
    (leaves children).map (fun found => (segment :: found.1, found.2)) ++ leaves rest

/-- Segments increase along every level, and no package is empty. -/
def WellFormed : PackageTree α → Prop
  | nil => True
  | leaf segment _ rest => (∀ other ∈ level rest, segment < other) ∧ WellFormed rest
  | package segment children rest =>
    children ≠ nil ∧ WellFormed children ∧ (∀ other ∈ level rest, segment < other)
      ∧ WellFormed rest

/-- The leaves of a package are those below it, behind its own segment, and those beside it. -/
theorem mem_leaves_package :
    (path, slot) ∈ leaves (package own children rest)
      ↔ (∃ below, path = own :: below ∧ (below, slot) ∈ leaves children)
        ∨ (path, slot) ∈ leaves rest := by
  rw [leaves, List.mem_append, List.mem_map]
  constructor
  · rintro (⟨⟨below, found⟩, hmem, hsame⟩ | hrest)
    · cases hsame
      exact .inl ⟨below, rfl, hmem⟩
    · exact .inr hrest
  · rintro (⟨below, rfl, hmem⟩ | hrest)
    · exact .inl ⟨(below, slot), hmem, rfl⟩
    · exact .inr hrest

/-- The path of a leaf starts on the level of the tree. -/
theorem exists_cons_of_mem_leaves (h : (path, slot) ∈ leaves tree) :
    ∃ segment others, path = segment :: others ∧ segment ∈ level tree := by
  induction tree with
  | nil => cases h
  | leaf own ownSlot rest ih =>
    rcases List.mem_cons.1 h with hown | hrest
    · cases hown
      exact ⟨own, [], rfl, List.mem_cons_self⟩
    · obtain ⟨segment, others, hpath, hlevel⟩ := ih hrest
      exact ⟨segment, others, hpath, List.mem_cons_of_mem own hlevel⟩
  | package own children rest _ ih =>
    rcases mem_leaves_package.1 h with ⟨below, hpath, _⟩ | hrest
    · exact ⟨own, below, hpath, List.mem_cons_self⟩
    · obtain ⟨segment, others, hpath, hlevel⟩ := ih hrest
      exact ⟨segment, others, hpath, List.mem_cons_of_mem own hlevel⟩

theorem nil_notMem_leaves : ([], slot) ∉ leaves tree := by
  intro h
  obtain ⟨segment, others, hpath, _⟩ := exists_cons_of_mem_leaves h
  cases hpath

/-- The first segment of a leaf stands on the uppermost level. -/
theorem mem_level_of_cons_mem_leaves (h : (segment :: others, slot) ∈ leaves tree) :
    segment ∈ level tree := by
  obtain ⟨first, behind, hpath, hlevel⟩ := exists_cons_of_mem_leaves h
  cases hpath
  exact hlevel

/-- What stands in front of a level does not stand on it. -/
theorem notMem_level_of_lt (h : ∀ other ∈ level tree, segment < other) : segment ∉ level tree :=
  fun hmem => lt_irrefl segment (h segment hmem)

/-- A tree that holds something has a leaf. -/
theorem WellFormed.exists_mem_leaves (h : tree.WellFormed) (hsome : tree ≠ nil) :
    ∃ path slot, (path, slot) ∈ leaves tree := by
  induction tree with
  | nil => exact absurd rfl hsome
  | leaf own ownSlot rest _ => exact ⟨[own], ownSlot, List.mem_cons_self⟩
  | package own children rest ih _ =>
    obtain ⟨hchildren, hwell, _, _⟩ := h
    obtain ⟨path, slot, hmem⟩ := ih hwell hchildren
    exact ⟨own :: path, slot, mem_leaves_package.2 (.inl ⟨path, rfl, hmem⟩)⟩

/-- The leaves stand in the order of their paths. -/
theorem WellFormed.pairwise_leaves (h : tree.WellFormed) :
    (leaves tree).Pairwise (fun first second => first.1 < second.1) := by
  induction tree with
  | nil => exact List.Pairwise.nil
  | leaf own ownSlot rest ih =>
    obtain ⟨hlt, hrest⟩ := h
    refine List.Pairwise.cons ?_ (ih hrest)
    rintro ⟨path, slot⟩ hmem
    obtain ⟨segment, others, rfl, hlevel⟩ := exists_cons_of_mem_leaves hmem
    exact List.cons_lt_cons_iff.2 (.inl (hlt segment hlevel))
  | package own children rest ihChildren ihRest =>
    obtain ⟨_, hchildren, hlt, hrest⟩ := h
    refine List.pairwise_append.2 ⟨?_, ihRest hrest, ?_⟩
    · refine List.pairwise_map.2 ((ihChildren hchildren).imp fun hfirst => ?_)
      exact List.cons_lt_cons_iff.2 (.inr ⟨rfl, hfirst⟩)
    · rintro first hfirst ⟨path, slot⟩ hmem
      obtain ⟨below, _, rfl⟩ := List.mem_map.1 hfirst
      obtain ⟨segment, others, rfl, hlevel⟩ := exists_cons_of_mem_leaves hmem
      exact List.cons_lt_cons_iff.2 (.inl (hlt segment hlevel))

/-! ## Finding nodes -/

/-- What stands under a segment of a level: nothing, a class, or a package with the leaves
below it. -/
theorem WellFormed.child?_cases (h : tree.WellFormed) (segment : String) :
    (tree.child? segment = none ∧ ∀ others slot, (segment :: others, slot) ∉ leaves tree)
      ∨ (∃ own, tree.child? segment = some (.leaf own) ∧ ∀ others slot,
        (segment :: others, slot) ∈ leaves tree ↔ others = [] ∧ slot = own)
      ∨ ∃ children, tree.child? segment = some (.package children) ∧ children ≠ nil
        ∧ children.WellFormed ∧ ∀ others slot,
          (segment :: others, slot) ∈ leaves tree ↔ (others, slot) ∈ leaves children := by
  induction tree with
  | nil => exact .inl ⟨rfl, fun _ _ => List.not_mem_nil⟩
  | leaf own ownSlot rest ih =>
    obtain ⟨hlt, hrest⟩ := h
    by_cases hsame : segment = own
    · subst hsame
      refine .inr (.inl ⟨ownSlot, by rw [child?, if_pos rfl], fun others slot => ?_⟩)
      have hbehind : (segment :: others, slot) ∉ leaves rest :=
        fun hmem => notMem_level_of_lt hlt (mem_level_of_cons_mem_leaves hmem)
      simp [leaves, hbehind]
    · have hskip : ∀ others slot, (segment :: others, slot) ∈ leaves (leaf own ownSlot rest)
          ↔ (segment :: others, slot) ∈ leaves rest := by
        intro others slot
        simp [leaves, hsame]
      simp only [child?, if_neg hsame, hskip]
      exact ih hrest
  | package own children rest _ ih =>
    obtain ⟨hchildren, hwell, hlt, hrest⟩ := h
    by_cases hsame : segment = own
    · subst hsame
      refine .inr (.inr ⟨children, by rw [child?, if_pos rfl], hchildren, hwell,
        fun others slot => ?_⟩)
      have hbehind : (segment :: others, slot) ∉ leaves rest :=
        fun hmem => notMem_level_of_lt hlt (mem_level_of_cons_mem_leaves hmem)
      simp [mem_leaves_package, hbehind]
    · have hskip : ∀ others slot, (segment :: others, slot) ∈ leaves (package own children rest)
          ↔ (segment :: others, slot) ∈ leaves rest := by
        intro others slot
        simp [mem_leaves_package, hsame]
      simp only [child?, if_neg hsame, hskip]
      exact ih hrest

/-- A path leads to a class exactly when it is the path of a leaf. -/
theorem WellFormed.getAt?_eq_leaf_iff (h : tree.WellFormed) (path : List String) (slot : α) :
    tree.getAt? path = some (.leaf slot) ↔ (path, slot) ∈ leaves tree := by
  induction path generalizing tree with
  | nil => simp [getAt?, nil_notMem_leaves]
  | cons segment others ih =>
    rcases h.child?_cases segment with ⟨hnone, hleaves⟩ | ⟨own, hleaf, hleaves⟩ |
      ⟨children, hpackage, _, hwell, hleaves⟩
    · cases others <;> simp [getAt?, hnone, hleaves]
    · cases others <;> simp [getAt?, hleaf, hleaves, eq_comm]
    · cases others with
      | nil => simp [getAt?, hpackage, hleaves, nil_notMem_leaves]
      | cons second others => simp [getAt?, hpackage, hleaves, ih hwell]

/-- A path of several segments begins the path of a leaf when what is below its first segment
does. -/
theorem exists_begun_cons_iff :
    (∃ found ∈ leaves tree, segment :: others <+: found.1 ∧ segment :: others ≠ found.1)
      ↔ ∃ below slot, (segment :: below, slot) ∈ leaves tree ∧ others <+: below
        ∧ others ≠ below := by
  constructor
  · rintro ⟨⟨path, slot⟩, hmem, hbegins, hne⟩
    obtain ⟨first, below, rfl, _⟩ := exists_cons_of_mem_leaves hmem
    obtain ⟨rfl, hbelow⟩ := List.cons_prefix_cons.1 hbegins
    exact ⟨below, slot, hmem, hbelow, fun hsame => hne (congrArg _ hsame)⟩
  · rintro ⟨below, slot, hmem, hbelow, hne⟩
    exact ⟨(segment :: below, slot), hmem, List.cons_prefix_cons.2 ⟨rfl, hbelow⟩,
      fun hsame => hne (List.cons.inj hsame).2⟩

/-- A path leads to a package exactly when it begins the path of a leaf. -/
theorem WellFormed.exists_getAt?_eq_package_iff (h : tree.WellFormed) (segment : String)
    (others : List String) :
    (∃ children, tree.getAt? (segment :: others) = some (.package children))
      ↔ ∃ found ∈ leaves tree, segment :: others <+: found.1 ∧ segment :: others ≠ found.1 := by
  rw [exists_begun_cons_iff]
  induction others generalizing tree segment with
  | nil =>
    rcases h.child?_cases segment with ⟨hnone, hleaves⟩ | ⟨own, hleaf, hleaves⟩ |
      ⟨children, hpackage, hsome, hwell, hleaves⟩
    · simp [getAt?, hnone, hleaves]
    · simp [getAt?, hleaf, hleaves]
    · obtain ⟨below, slot, hmem⟩ := hwell.exists_mem_leaves hsome
      have hne : [] ≠ below := fun hnil => nil_notMem_leaves (hnil ▸ hmem)
      refine iff_of_true ⟨children, hpackage⟩ ⟨below, slot, (hleaves below slot).2 hmem, ?_, hne⟩
      exact List.nil_prefix
  | cons second others ih =>
    rcases h.child?_cases segment with ⟨hnone, hleaves⟩ | ⟨own, hleaf, hleaves⟩ |
      ⟨children, hpackage, _, hwell, hleaves⟩
    · simp [getAt?, hnone, hleaves]
    · simp [getAt?, hleaf, hleaves]
    · simp only [getAt?, hpackage, hleaves, ih hwell second, ← exists_begun_cons_iff]
      simp

/-- No path leads to an empty package. -/
theorem WellFormed.ne_nil_of_getAt? (h : tree.WellFormed)
    (hget : tree.getAt? path = some (.package children)) : children ≠ nil := by
  induction path generalizing tree with
  | nil => cases hget
  | cons segment others ih =>
    rcases h.child?_cases segment with ⟨hnone, _⟩ | ⟨own, hleaf, _⟩ |
      ⟨below, hpackage, hsome, hwell, _⟩
    · cases others <;> simp [getAt?, hnone] at hget
    · cases others <;> simp [getAt?, hleaf] at hget
    · cases others with
      | nil =>
        rw [getAt?, hpackage] at hget
        cases hget
        exact hsome
      | cons second others =>
        simp only [getAt?, hpackage] at hget
        exact ih hwell hget

/-! ## Adding classes -/

/-- A path has room beside the leaves of a tree: it neither begins nor continues one of them. -/
def HasRoom (tree : PackageTree α) (path : List String) : Prop :=
  ∀ found ∈ leaves tree, ¬ found.1 <+: path ∧ ¬ path <+: found.1

/-- Only the leaves under its first segment can be in the way of a path. -/
theorem hasRoom_cons_iff :
    tree.HasRoom (segment :: others) ↔ ∀ below slot, (segment :: below, slot) ∈ leaves tree →
      ¬ below <+: others ∧ ¬ others <+: below := by
  constructor
  · intro h below slot hmem
    have hroom := h (segment :: below, slot) hmem
    simpa [List.cons_prefix_cons] using hroom
  · rintro h ⟨path, slot⟩ hmem
    obtain ⟨first, below, rfl, _⟩ := exists_cons_of_mem_leaves hmem
    by_cases hsame : first = segment
    · subst hsame
      simpa [List.cons_prefix_cons] using h below slot hmem
    · simp [List.cons_prefix_cons, hsame, Ne.symm hsame]

/-- What adding a class at a path can come to: the tree stays as it is because the path has no
room, or it gets one more leaf. -/
inductive Addition (tree : PackageTree α) (path : List String) (slot : α) :
    PackageTree α → Prop
  /-- The path has no room. -/
  | refused (hfull : ¬ tree.HasRoom path) : Addition tree path slot tree
  /-- The class is a new leaf. -/
  | added {after : PackageTree α} (hroom : tree.HasRoom path) (hwell : after.WellFormed)
      (hleaves : ∀ found, found ∈ leaves after ↔ found = (path, slot) ∨ found ∈ leaves tree) :
      Addition tree path slot after

/-- A chain of packages has a single leaf, in front of the rest. -/
theorem leaves_chain (slot : α) (rest : PackageTree α) (segment : String)
    (others : List String) :
    leaves (chain slot rest (segment :: others)) = (segment :: others, slot) :: leaves rest := by
  induction others generalizing segment rest with
  | nil => rfl
  | cons second others ih =>
    rw [chain, leaves, ih]
    · rfl
    · simp

theorem level_chain (slot : α) (rest : PackageTree α) (segment : String)
    (others : List String) : level (chain slot rest (segment :: others)) = segment :: level rest := by
  cases others <;> rfl

/-- A chain in front of later segments keeps a tree well formed. -/
theorem wellFormed_chain (h : ∀ other ∈ level rest, segment < other) (hrest : rest.WellFormed)
    (others : List String) : (chain slot rest (segment :: others)).WellFormed := by
  induction others generalizing segment rest with
  | nil => exact ⟨h, hrest⟩
  | cons second others ih =>
    have hbelow : (chain slot nil (second :: others)).WellFormed := ih (by simp [level]) trivial
    have hsome : chain slot nil (second :: others) ≠ nil := by
      intro hnil
      have hlevel := level_chain slot nil second others
      rw [hnil] at hlevel
      cases hlevel
    exact ⟨hsome, hbelow, h, hrest⟩

/-- A class whose first segment comes before the level is added in front of it. -/
theorem addition_chain (h : ∀ other ∈ level tree, segment < other) (hwell : tree.WellFormed)
    (slot : α) (others : List String) :
    Addition tree (segment :: others) slot (chain slot tree (segment :: others)) := by
  refine .added (hasRoom_cons_iff.2 fun below other hmem => ?_) (wellFormed_chain h hwell others)
    fun found => ?_
  · exact absurd (mem_level_of_cons_mem_leaves hmem) (notMem_level_of_lt h)
  · rw [leaves_chain, List.mem_cons]

/-- Adding to the rest of a level, behind a class. -/
theorem Addition.behind_leaf {after : PackageTree α} {ownSlot : α} (hne : segment ≠ own)
    (hlt : ∀ other ∈ level after, own < other)
    (h : Addition rest (segment :: others) slot after) :
    Addition (leaf own ownSlot rest) (segment :: others) slot (leaf own ownSlot after) := by
  have hroom : (leaf own ownSlot rest).HasRoom (segment :: others)
      ↔ rest.HasRoom (segment :: others) := by
    simp [hasRoom_cons_iff, leaves, hne]
  cases h with
  | refused hfull => exact .refused (fun hown => hfull (hroom.1 hown))
  | added hrest hwell hleaves =>
    refine .added (hroom.2 hrest) ⟨hlt, hwell⟩ fun found => ?_
    rw [leaves, List.mem_cons, hleaves, leaves, List.mem_cons, or_left_comm]

/-- Adding to the rest of a level, behind a package. -/
theorem Addition.behind_package {after : PackageTree α} (hne : segment ≠ own)
    (hchildren : children ≠ nil) (hbelow : children.WellFormed)
    (hlt : ∀ other ∈ level after, own < other)
    (h : Addition rest (segment :: others) slot after) :
    Addition (package own children rest) (segment :: others) slot
      (package own children after) := by
  have hroom : (package own children rest).HasRoom (segment :: others)
      ↔ rest.HasRoom (segment :: others) := by
    simp [hasRoom_cons_iff, mem_leaves_package, hne]
  cases h with
  | refused hfull => exact .refused (fun hown => hfull (hroom.1 hown))
  | added hrest hwell hleaves =>
    refine .added (hroom.2 hrest) ⟨hchildren, hbelow, hlt, hwell⟩ fun found => ?_
    rw [leaves, List.mem_append, hleaves, leaves, List.mem_append, or_left_comm]

/-- Adding below a package. -/
theorem Addition.below_package {after : PackageTree α}
    (hlt : ∀ other ∈ level rest, segment < other) (hrest : rest.WellFormed)
    (h : Addition children path slot after) :
    Addition (package segment children rest) (segment :: path) slot
      (package segment after rest) := by
  have hbehind : ∀ below slot, (segment :: below, slot) ∉ leaves rest :=
    fun below slot hmem => notMem_level_of_lt hlt (mem_level_of_cons_mem_leaves hmem)
  have hroom : (package segment children rest).HasRoom (segment :: path)
      ↔ children.HasRoom path := by
    rw [hasRoom_cons_iff]
    simp [mem_leaves_package, hbehind, HasRoom]
  cases h with
  | refused hfull => exact .refused (fun hown => hfull (hroom.1 hown))
  | added hbelow hwell hleaves =>
    have hafter : after ≠ nil := by
      rintro rfl
      have hnew := (hleaves (path, slot)).2 (.inl rfl)
      cases hnew
    refine .added (hroom.2 hbelow) ⟨hafter, hwell, hlt, hrest⟩ fun found => ?_
    obtain ⟨way, other⟩ := found
    simp only [mem_leaves_package, hleaves, Prod.mk.injEq]
    grind

/-- Only the first segment of the added path can be new on a level. -/
theorem mem_level_insertAt {other : String}
    (h : other ∈ level (insertAt slot (segment :: others) tree)) :
    other = segment ∨ other ∈ level tree := by
  induction tree with
  | nil =>
    rw [insertAt, level_chain] at h
    exact List.mem_cons.1 h
  | leaf own ownSlot rest ih =>
    rw [insertAt] at h
    split at h
    · rw [level_chain] at h
      exact List.mem_cons.1 h
    · split at h
      · exact .inr h
      · rcases List.mem_cons.1 h with hown | hrest
        · exact .inr (hown ▸ List.mem_cons_self)
        · exact (ih hrest).imp_right (List.mem_cons_of_mem own)
  | package own children rest _ ih =>
    simp only [insertAt] at h
    split at h
    · rw [level_chain] at h
      exact List.mem_cons.1 h
    · split at h
      · cases others <;> exact .inr h
      · rcases List.mem_cons.1 h with hown | hrest
        · exact .inr (hown ▸ List.mem_cons_self)
        · exact (ih hrest).imp_right (List.mem_cons_of_mem own)

/-- A level stays behind a segment that the added path comes behind as well. -/
theorem lt_of_mem_level_insertAt {other : String} (hown : own < segment)
    (hlt : ∀ other ∈ level tree, own < other)
    (h : other ∈ level (insertAt slot (segment :: others) tree)) : own < other := by
  rcases mem_level_insertAt h with rfl | hlevel
  · exact hown
  · exact hlt other hlevel

/-- Adding a class at a path makes it a new leaf, or changes nothing where it has no room. The
induction is on the tree, which is walked along the level and down into packages. -/
theorem WellFormed.addition_insertAt (h : tree.WellFormed) (slot : α) (segment : String)
    (others : List String) :
    Addition tree (segment :: others) slot (insertAt slot (segment :: others) tree) := by
  induction tree generalizing segment others with
  | nil =>
    have hfront : ∀ other ∈ level (nil : PackageTree α), segment < other :=
      fun _ hmem => absurd hmem List.not_mem_nil
    rw [insertAt]
    exact addition_chain hfront h slot others
  | leaf own ownSlot rest ih =>
    obtain ⟨hlt, hrest⟩ := h
    rcases lt_trichotomy segment own with hless | rfl | hgreater
    · have hfront : ∀ other ∈ level (leaf own ownSlot rest), segment < other :=
        List.forall_mem_cons.2 ⟨hless, fun other hmem => hless.trans (hlt other hmem)⟩
      rw [insertAt, if_pos hless]
      exact addition_chain hfront ⟨hlt, hrest⟩ slot others
    · rw [insertAt, if_neg (lt_irrefl segment), if_pos rfl]
      refine .refused fun hroom => ?_
      exact (hasRoom_cons_iff.1 hroom [] ownSlot List.mem_cons_self).1 List.nil_prefix
    · rw [insertAt, if_neg hgreater.not_gt, if_neg hgreater.ne']
      exact Addition.behind_leaf hgreater.ne' (fun _ => lt_of_mem_level_insertAt hgreater hlt)
        (ih hrest segment others)
  | package own children rest ihChildren ihRest =>
    obtain ⟨hchildren, hbelow, hlt, hrest⟩ := h
    rcases lt_trichotomy segment own with hless | rfl | hgreater
    · have hfront : ∀ other ∈ level (package own children rest), segment < other :=
        List.forall_mem_cons.2 ⟨hless, fun other hmem => hless.trans (hlt other hmem)⟩
      simp only [insertAt, if_pos hless]
      exact addition_chain hfront ⟨hchildren, hbelow, hlt, hrest⟩ slot others
    · simp only [insertAt, if_neg (lt_irrefl segment), if_true]
      cases others with
      | nil =>
        obtain ⟨below, other, hmem⟩ := hbelow.exists_mem_leaves hchildren
        have hleaf : (segment :: below, other) ∈ leaves (package segment children rest) :=
          mem_leaves_package.2 (.inl ⟨below, rfl, hmem⟩)
        exact .refused fun hroom => (hasRoom_cons_iff.1 hroom below other hleaf).2 List.nil_prefix
      | cons second others =>
        exact Addition.below_package hlt hrest (ihChildren hbelow second others)
    · simp only [insertAt, if_neg hgreater.not_gt, if_neg hgreater.ne']
      exact Addition.behind_package hgreater.ne' hchildren hbelow
        (fun _ => lt_of_mem_level_insertAt hgreater hlt) (ihRest hrest segment others)

/-- Inserting a name adds its segments as a leaf, where there is room. -/
theorem WellFormed.addition_insert (h : tree.WellFormed) (name : String) (slot : α) :
    Addition tree (segments name) slot (tree.insert name slot) := by
  obtain ⟨segment, others, hsegments⟩ := exists_segments_eq_cons name
  rw [insert, hsegments]
  exact h.addition_insertAt slot segment others

/-! ## Names added one after the other -/

/-- A name begins another one: its segments are the first ones of the other name, and not all
of them. -/
def Begins (first second : String) : Prop :=
  segments first <+: segments second ∧ first ≠ second

/-- A name can be kept beside others: it is none of them, none of them begins it, and it begins
none of them. -/
def Fits (kept : List String) (name : String) : Prop :=
  ∀ other ∈ kept, other ≠ name ∧ ¬ Begins other name ∧ ¬ Begins name other

instance (first second : String) : Decidable (Begins first second) :=
  inferInstanceAs (Decidable (_ ∧ _))

instance (kept : List String) (name : String) : Decidable (Fits kept name) :=
  inferInstanceAs (Decidable (∀ other ∈ kept, _))

/-- The names that are kept out of names that come one after the other. -/
def keptNames (names : List String) : List String :=
  names.foldl (fun kept name => if Fits kept name then kept ++ [name] else kept) []

/-- The tree that classes lead to when they are added one after the other. -/
def ofInsertions (insertions : List (String × α)) : PackageTree α :=
  insertions.foldl (fun tree insertion => tree.insert insertion.1 insertion.2) nil

variable {names kept : List String} {name : String}

/-- A name fits when its segments neither begin with those of a kept name nor are their beginning.
-/
theorem fits_iff_segments :
    Fits kept name ↔ ∀ other ∈ kept,
      ¬ segments other <+: segments name ∧ ¬ segments name <+: segments other := by
  refine forall₂_congr fun other _ => ?_
  by_cases hsame : other = name
  · simp [hsame]
  · simp [Begins, hsame, Ne.symm hsame]

/-- A further name is kept when it fits with those that are. -/
theorem keptNames_append_singleton (names : List String) (name : String) :
    keptNames (names ++ [name])
      = if Fits (keptNames names) name then keptNames names ++ [name] else keptNames names := by
  unfold keptNames
  rw [List.foldl_append, List.foldl_cons, List.foldl_nil]

theorem ofInsertions_append_singleton (insertions : List (String × α)) (name : String)
    (slot : α) :
    ofInsertions (insertions ++ [(name, slot)]) = (ofInsertions insertions).insert name slot := by
  unfold ofInsertions
  rw [List.foldl_append, List.foldl_cons, List.foldl_nil]

theorem mem_of_mem_keptNames (h : name ∈ keptNames names) : name ∈ names := by
  induction names using List.reverseRecOn with
  | nil => exact h
  | append_singleton names last ih =>
    rw [keptNames_append_singleton] at h
    rw [List.mem_append]
    split at h
    · exact (List.mem_append.1 h).imp_left ih
    · exact .inl (ih h)

/-- A name that has come once is never kept again. -/
theorem not_fits_keptNames (h : name ∈ names) : ¬ Fits (keptNames names) name := by
  induction names using List.reverseRecOn with
  | nil => cases h
  | append_singleton names last ih =>
    rw [keptNames_append_singleton]
    intro hfits
    rcases List.mem_append.1 h with hbefore | hlast
    · refine ih hbefore fun other hother => ?_
      split at hfits
      · exact hfits other (List.mem_append_left [last] hother)
      · exact hfits other hother
    · cases List.mem_singleton.1 hlast
      split at hfits
      · exact (hfits name (List.mem_append_right _ List.mem_cons_self)).1 rfl
      · next hrefused => exact hrefused hfits

/-- No kept name begins another one. -/
theorem pairwise_keptNames (names : List String) :
    (keptNames names).Pairwise fun first second =>
      first ≠ second ∧ ¬ Begins first second ∧ ¬ Begins second first := by
  induction names using List.reverseRecOn with
  | nil => exact List.Pairwise.nil
  | append_singleton names last ih =>
    rw [keptNames_append_singleton]
    split
    · next hfits =>
      refine List.pairwise_append.2 ⟨ih, List.pairwise_singleton _ _, ?_⟩
      intro first hfirst second hsecond
      rw [List.mem_singleton.1 hsecond]
      exact hfits first hfirst
    · exact ih

/-- No kept name begins another one. -/
theorem not_begins_of_mem_keptNames {first second : String} (hfirst : first ∈ keptNames names)
    (hsecond : second ∈ keptNames names) : ¬ Begins first second := by
  intro hbegins
  have hsymm : Std.Symm fun first second : String =>
      first ≠ second ∧ ¬ Begins first second ∧ ¬ Begins second first :=
    ⟨fun _ _ hpair => ⟨hpair.1.symm, hpair.2.2, hpair.2.1⟩⟩
  have hpair := (pairwise_keptNames names).forall hfirst hsecond hbegins.2
  exact hpair.2.1 hbegins

/-- The leaves of a tree are the kept ones of some insertions, with the slots they came with
first. -/
structure Holds (tree : PackageTree α) (insertions : List (String × α)) : Prop where
  /-- The tree is well-formed. -/
  wellFormed : tree.WellFormed
  /-- Each leaf is a kept name with the slot of its first insertion. -/
  mem_leaves_iff : ∀ path slot, (path, slot) ∈ leaves tree
    ↔ ∃ name ∈ keptNames (insertions.map (·.1)),
      segments name = path ∧ insertions.lookup name = some slot

variable {insertions : List (String × α)}

theorem exists_lookup_of_mem (h : name ∈ insertions.map (·.1)) :
    ∃ slot, insertions.lookup name = some slot := by
  obtain ⟨insertion, hmem, rfl⟩ := List.mem_map.1 h
  exact Option.isSome_iff_exists.1 (List.lookup_isSome_iff.2 ⟨insertion, hmem, beq_self_eq_true _⟩)

theorem mem_of_lookup_eq_some (h : insertions.lookup name = some slot) :
    (name, slot) ∈ insertions := by
  obtain ⟨before, behind, hsplit, _⟩ := List.lookup_eq_some_iff.1 h
  rw [hsplit]
  exact List.mem_append_right before List.mem_cons_self

/-- A later insertion does not change the slot that a name came with first. -/
theorem lookup_append_of_mem (h : name ∈ insertions.map (·.1)) (later : List (String × α)) :
    (insertions ++ later).lookup name = insertions.lookup name := by
  obtain ⟨slot, hslot⟩ := exists_lookup_of_mem h
  rw [List.lookup_append, hslot, Option.some_or]

namespace Holds

/-- The leaves of the tree are the kept names, with the first slot that was inserted for each. -/
theorem mem_leaves_segments_iff (h : Holds tree insertions) (name : String) (slot : α) :
    (segments name, slot) ∈ leaves tree
      ↔ name ∈ keptNames (insertions.map (·.1)) ∧ insertions.lookup name = some slot := by
  rw [h.mem_leaves_iff]
  constructor
  · rintro ⟨other, hkept, hsame, hslot⟩
    obtain rfl := segments_inj.1 hsame
    exact ⟨hkept, hslot⟩
  · rintro ⟨hkept, hslot⟩
    exact ⟨name, hkept, rfl, hslot⟩

/-- A quality of paths that some leaf has is one that the segments of some kept name have. -/
theorem exists_leaf_iff (h : Holds tree insertions) (quality : List String → Prop) :
    (∃ found ∈ leaves tree, quality found.1)
      ↔ ∃ name ∈ keptNames (insertions.map (·.1)), quality (segments name) := by
  constructor
  · rintro ⟨⟨path, slot⟩, hmem, hquality⟩
    obtain ⟨name, hkept, rfl, _⟩ := (h.mem_leaves_iff path slot).1 hmem
    exact ⟨name, hkept, hquality⟩
  · rintro ⟨name, hkept, hquality⟩
    obtain ⟨slot, hslot⟩ := exists_lookup_of_mem (mem_of_mem_keptNames hkept)
    exact ⟨(segments name, slot), (h.mem_leaves_segments_iff name slot).2 ⟨hkept, hslot⟩, hquality⟩

/-- There is room for a name in the tree exactly if it fits with the kept names. -/
theorem hasRoom_iff (h : Holds tree insertions) (name : String) :
    tree.HasRoom (segments name) ↔ Fits (keptNames (insertions.map (·.1))) name := by
  have hleaf := h.exists_leaf_iff fun path => path <+: segments name ∨ segments name <+: path
  rw [fits_iff_segments, HasRoom, ← not_iff_not]
  simpa [imp_iff_not_or, not_and_or] using hleaf

/-- One more insertion. -/
theorem insert (h : Holds tree insertions) (name : String) (slot : α) :
    Holds (tree.insert name slot) (insertions ++ [(name, slot)]) := by
  have hadd := h.wellFormed.addition_insert name slot
  have hfits := h.hasRoom_iff name
  have hslots : ∀ other ∈ keptNames (insertions.map (·.1)),
      (insertions ++ [(name, slot)]).lookup other = insertions.lookup other :=
    fun other hkept => lookup_append_of_mem (mem_of_mem_keptNames hkept) _
  generalize tree.insert name slot = after at hadd
  cases hadd with
  | refused hfull =>
    refine ⟨h.wellFormed, fun path other => ?_⟩
    rw [h.mem_leaves_iff, List.map_append, List.map_singleton, keptNames_append_singleton,
      if_neg fun hfit => hfull (hfits.2 hfit)]
    exact exists_congr fun found => and_congr_right fun hkept => by rw [hslots found hkept]
  | added hroom hwell hleaves =>
    have hnew : insertions.lookup name = none := by
      cases hfound : insertions.lookup name with
      | none => rfl
      | some first =>
        have hmem : name ∈ insertions.map (·.1) :=
          List.mem_map_of_mem (mem_of_lookup_eq_some hfound)
        exact absurd (hfits.1 hroom) (not_fits_keptNames hmem)
    have hslot : (insertions ++ [(name, slot)]).lookup name = some slot := by
      rw [List.lookup_append, hnew, Option.none_or, List.lookup_cons, beq_self_eq_true]
    refine ⟨hwell, fun path other => ?_⟩
    rw [hleaves, h.mem_leaves_iff, List.map_append, List.map_singleton,
      keptNames_append_singleton, if_pos (hfits.1 hroom)]
    constructor
    · rintro (hown | ⟨found, hkept, hpath, hfound⟩)
      · cases hown
        exact ⟨name, List.mem_append_right _ List.mem_cons_self, rfl, hslot⟩
      · exact ⟨found, List.mem_append_left _ hkept, hpath, (hslots found hkept).trans hfound⟩
    · rintro ⟨found, hkept, rfl, hfound⟩
      rcases List.mem_append.1 hkept with hbefore | hlast
      · rw [hslots found hbefore] at hfound
        exact .inr ⟨found, hbefore, rfl, hfound⟩
      · rw [List.mem_singleton.1 hlast, hslot] at hfound
        cases hfound
        rw [List.mem_singleton.1 hlast]
        exact .inl rfl

/-- A path leads to a class exactly when it is a kept name. -/
theorem get?_eq_leaf_iff (h : Holds tree insertions) (path : String) (slot : α) :
    tree.get? path = some (.leaf slot)
      ↔ path ∈ keptNames (insertions.map (·.1)) ∧ insertions.lookup path = some slot := by
  rw [get?, h.wellFormed.getAt?_eq_leaf_iff, h.mem_leaves_segments_iff]

/-- Looking a path up finds a leaf exactly for the kept names. -/
theorem exists_get?_eq_leaf_iff (h : Holds tree insertions) (path : String) :
    (∃ slot, tree.get? path = some (.leaf slot)) ↔ path ∈ keptNames (insertions.map (·.1)) := by
  simp only [h.get?_eq_leaf_iff, exists_and_left]
  exact and_iff_left_of_imp fun hkept => exists_lookup_of_mem (mem_of_mem_keptNames hkept)

/-- A path leads to a package exactly when it begins a kept name. -/
theorem exists_get?_eq_package_iff (h : Holds tree insertions) (path : String) :
    (∃ children, tree.get? path = some (.package children))
      ↔ ∃ name ∈ keptNames (insertions.map (·.1)), Begins path name := by
  obtain ⟨segment, others, hsegments⟩ := exists_segments_eq_cons path
  have hbegun := h.exists_leaf_iff fun found => segments path <+: found ∧ segments path ≠ found
  rw [get?, hsegments, h.wellFormed.exists_getAt?_eq_package_iff, ← hsegments, hbegun]
  simp only [Begins, ne_eq, segments_inj]

/-- A name that does not fit changes nothing. -/
theorem insert_eq_self (h : Holds tree insertions)
    (hfits : ¬ Fits (keptNames (insertions.map (·.1))) name) (slot : α) :
    tree.insert name slot = tree := by
  have hadd := h.wellFormed.addition_insert name slot
  generalize tree.insert name slot = after at hadd
  cases hadd with
  | refused _ => rfl
  | added hroom _ _ => exact absurd ((h.hasRoom_iff name).1 hroom) hfits

end Holds

/-- A tree of insertions holds the names that are kept of them. The induction is on the insertions,
from the last one. -/
theorem holds_ofInsertions (insertions : List (String × α)) :
    Holds (ofInsertions insertions) insertions := by
  induction insertions using List.reverseRecOn with
  | nil => exact ⟨trivial, fun path slot => by simp [ofInsertions, leaves, keptNames]⟩
  | append_singleton insertions last ih =>
    obtain ⟨name, slot⟩ := last
    rw [ofInsertions_append_singleton]
    exact ih.insert name slot

/-- A tree answers for some insertions as the list of their kept names does. -/
structure AnswersAsKept (tree : PackageTree α) (insertions : List (String × α))
    (kept : List String) : Prop where
  /-- No kept name begins another one, and none is kept twice. -/
  prefix_free : kept.Pairwise fun first second =>
    first ≠ second ∧ ¬ Begins first second ∧ ¬ Begins second first
  /-- The kept names, and no other paths, lead to a class. -/
  class_iff : ∀ path, (∃ slot, tree.get? path = some (.leaf slot)) ↔ path ∈ kept
  /-- A class has the slot that its name came with first. -/
  first_slot : ∀ path slot, tree.get? path = some (.leaf slot) →
    insertions.lookup path = some slot
  /-- What begins a kept name, and no other path, leads to a package. -/
  package_iff : ∀ path, (∃ children, tree.get? path = some (.package children))
    ↔ ∃ name ∈ kept, Begins path name
  /-- All other paths lead to nothing. -/
  none_iff : ∀ path, tree.get? path = none ↔ path ∉ kept ∧ ¬ ∃ name ∈ kept, Begins path name
  /-- A name that would not be kept changes nothing. -/
  refuses : ∀ name slot, ¬ Fits kept name → tree.insert name slot = tree
  /-- No package is empty, wherever it is. -/
  populated : ∀ path children, tree.getAt? path = some (.package children) →
    children.isEmpty = false

/-- Whatever is inserted, in whatever order, a package tree answers as the list of the names
that are kept. -/
theorem insertions_refine_kept_names (insertions : List (String × α)) :
    AnswersAsKept (ofInsertions insertions) insertions (keptNames (insertions.map (·.1))) := by
  have hholds := holds_ofInsertions insertions
  refine ⟨pairwise_keptNames _, hholds.exists_get?_eq_leaf_iff, fun path slot hleaf => ?_,
    hholds.exists_get?_eq_package_iff, fun path => ?_,
    fun name slot hfits => hholds.insert_eq_self hfits slot, fun path children hpackage => ?_⟩
  · exact ((hholds.get?_eq_leaf_iff path slot).1 hleaf).2
  · rw [← hholds.exists_get?_eq_leaf_iff, ← hholds.exists_get?_eq_package_iff]
    cases hnode : (ofInsertions insertions).get? path with
    | none => simp
    | some node => cases node <;> simp
  · have hsome := hholds.wellFormed.ne_nil_of_getAt? hpackage
    cases children with
    | nil => exact absurd rfl hsome
    | leaf _ _ _ => rfl
    | package _ _ _ => rfl

end PackageTree

end ClassAtlas
