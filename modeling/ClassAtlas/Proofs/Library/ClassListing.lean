import ClassAtlas.Library.ClassSource
import ClassAtlas.Proofs.Library.PackageLeaves

/-!
# The listing of a package tree

The classes of a tree are listed by a walk that puts the segments of each path together
again. Behind an empty path the walk writes no point, so the points that a name begins
with get lost, and the name of another class may be listed in their place. All other
names are listed as they were added, each once and in the order of their segments. A
name that begins with a point keeps its place in the tree unless the empty name was
added before, which then is a class where the package would have to be.
-/

namespace ClassAtlas

open Text

/-- A name without the points that it begins with. -/
def unpointed (name : String) : String :=
  String.ofList (name.toList.dropWhile (· = '.'))

/-- Whether a name begins with a point. -/
def beginsWithPoint (name : String) : Bool :=
  name.toList.head? = some '.'

/-- Whether the first segment of a name is empty: the name is empty or begins with a point. -/
def beginsBlank (name : String) : Bool :=
  name = "" || beginsWithPoint name

/-- Without the points in front, a name does not begin with a point. -/
theorem beginsWithPoint_unpointed (name : String) : beginsWithPoint (unpointed name) = false := by
  have hhead := List.head?_dropWhile_not (· = '.') name.toList
  unfold beginsWithPoint unpointed
  rw [String.toList_ofList, decide_eq_false_iff_not]
  intro hpoint
  rw [hpoint] at hhead
  exact absurd rfl (of_decide_eq_false hhead)

/-- A name that does not begin with a point stays as it is. -/
theorem unpointed_of_not_beginsWithPoint {name : String} (h : beginsWithPoint name = false) :
    unpointed name = name := by
  unfold beginsWithPoint at h
  unfold unpointed
  cases hchars : name.toList with
  | nil => rw [List.dropWhile_nil, ← hchars, String.ofList_toList]
  | cons c chars =>
    rw [hchars, decide_eq_false_iff_not, List.head?_cons, Option.some.injEq] at h
    rw [List.dropWhile_cons_of_neg (by simpa using h), ← hchars, String.ofList_toList]

/-- A point in front of a name is an empty segment in front of the others. -/
theorem segments_ofList_point (chars : List Char) :
    segments (String.ofList ('.' :: chars)) = "" :: segments (String.ofList chars) := by
  unfold segments
  rw [String.toList_ofList, String.toList_ofList, splitAtMark_cons_self]
  rfl

/-- A name that does not begin with a point has a first segment that is not empty. -/
theorem exists_segments_ofList_cons {c : Char} (h : c ≠ '.') (chars : List Char) :
    ∃ segment others, segments (String.ofList (c :: chars)) = segment :: others
      ∧ segment ≠ "" := by
  obtain ⟨part, others, hsplit⟩ := exists_splitAtMark_eq_cons '.' chars
  refine ⟨String.ofList (c :: part), others.map String.ofList, ?_, ?_⟩
  · rw [segments, String.toList_ofList, splitAtMark_cons_of_ne h hsplit]
    rfl
  · intro hempty
    have hchars := congrArg String.toList hempty
    rw [String.toList_ofList] at hchars
    cases hchars

/-- The first segment is empty exactly when the name begins blank. -/
theorem head?_segments_eq_empty_iff (name : String) :
    (segments name).head? = some "" ↔ beginsBlank name = true := by
  obtain ⟨chars, rfl⟩ : ∃ chars, name = String.ofList chars :=
    ⟨name.toList, String.ofList_toList.symm⟩
  cases chars with
  | nil => exact iff_of_true rfl rfl
  | cons c chars =>
    by_cases hpoint : c = '.'
    · subst hpoint
      rw [segments_ofList_point]
      simp [beginsBlank, beginsWithPoint]
    · obtain ⟨segment, others, hsegments, hsome⟩ := exists_segments_ofList_cons hpoint chars
      rw [hsegments]
      simp [beginsBlank, beginsWithPoint, hsome, hpoint]

namespace PackageTree

variable {α : Type} {tree : PackageTree α} {insertions : List (String × α)}

/-! ## Putting segments together -/

/-- The class names below a path are put together from the segments of the leaves. -/
theorem classNamesBelow_eq_map (path : String) (tree : PackageTree α) :
    classNamesBelow path tree = (leaves tree).map fun found => found.1.foldl childPath path := by
  induction tree generalizing path with
  | nil => rfl
  | leaf segment slot rest ih =>
    rw [classNamesBelow, leaves, List.map_cons, ih]
    rfl
  | package segment children rest ihChildren ihRest =>
    rw [classNamesBelow, leaves, List.map_append, List.map_map, ihChildren, ihRest]
    rfl

/-- Below a path that is not empty, segments are joined by points. -/
theorem foldl_childPath_of_ne {path : String} (h : path ≠ "") (others : List String) :
    others.foldl childPath path = joined "." (path :: others) := by
  induction others generalizing path with
  | nil => exact String.intercalate_singleton.symm
  | cons segment others ih =>
    have hlonger : path ++ "." ++ segment ≠ "" := by simp
    rw [List.foldl_cons, childPath, if_neg h, ih hlonger]
    cases others with
    | nil => simp [joined]
    | cons second others =>
      simp only [joined, String.intercalate_cons_cons, String.append_assoc]

/-- The segments of a name, put together again, are the name without leading points. -/
theorem foldl_childPath_segments (name : String) :
    (segments name).foldl childPath "" = unpointed name := by
  obtain ⟨chars, rfl⟩ : ∃ chars, name = String.ofList chars :=
    ⟨name.toList, String.ofList_toList.symm⟩
  induction chars with
  | nil => rfl
  | cons c chars ih =>
    by_cases hpoint : c = '.'
    · have hchildPath : childPath "" "" = "" := rfl
      rw [hpoint, segments_ofList_point, List.foldl_cons, hchildPath, ih]
      unfold unpointed
      rw [String.toList_ofList, String.toList_ofList, List.dropWhile_cons_of_pos (by simp)]
    · obtain ⟨segment, others, hsegments, hsome⟩ := exists_segments_ofList_cons hpoint chars
      have hplain : beginsWithPoint (String.ofList (c :: chars)) = false := by
        simp [beginsWithPoint, hpoint]
      rw [unpointed_of_not_beginsWithPoint hplain, hsegments, List.foldl_cons, childPath,
        if_pos rfl, foldl_childPath_of_ne hsome, ← hsegments, joined_segments]

/-! ## Listing -/

/-- The names of the classes of a tree, in tree order. -/
def leafNames (tree : PackageTree α) : List String :=
  (leaves tree).map fun found => joined "." found.1

/-- The names of leaves have the paths of the leaves as their segments. -/
theorem Holds.map_segments_leafNames (h : Holds tree insertions) :
    (leafNames tree).map segments = (leaves tree).map (·.1) := by
  rw [leafNames, List.map_map]
  refine List.map_congr_left fun found hmem => ?_
  obtain ⟨name, _, hpath, _⟩ := (h.mem_leaves_iff found.1 found.2).1 hmem
  rw [Function.comp_apply, ← hpath, joined_segments]

/-- The listing gives the names of the leaves without leading points. -/
theorem Holds.classNames_eq_map (h : Holds tree insertions) :
    tree.classNames = (leafNames tree).map unpointed := by
  have hlisted : (leafNames tree).map unpointed
      = ((leafNames tree).map segments).map fun path => path.foldl childPath "" := by
    rw [List.map_map]
    exact List.map_congr_left fun name _ => (foldl_childPath_segments name).symm
  rw [hlisted, h.map_segments_leafNames, List.map_map, classNames, classNamesBelow_eq_map]
  rfl

/-- The names of the leaves are the kept names. -/
theorem Holds.mem_leafNames_iff (h : Holds tree insertions) (name : String) :
    name ∈ leafNames tree ↔ name ∈ keptNames (insertions.map (·.1)) := by
  have hleaf := h.exists_leaf_iff fun path => joined "." path = name
  simpa [leafNames, joined_segments] using hleaf

/-- The leaves stand in the order of their segments. -/
theorem Holds.pairwise_leafNames (h : Holds tree insertions) :
    ((leafNames tree).map segments).Pairwise (· < ·) := by
  rw [h.map_segments_leafNames, List.pairwise_map]
  exact h.wellFormed.pairwise_leaves

/-- The listing of a tree is exact: it has every name that leads to a class, once, and no other
name, in the order of the segments. -/
structure ListsItsClasses (tree : PackageTree α) : Prop where
  /-- No name is listed twice. -/
  nodup : tree.classNames.Nodup
  /-- The listed names are those that lead to a class. -/
  mem_iff : ∀ name, name ∈ tree.classNames ↔ ∃ slot, tree.get? name = some (.leaf slot)
  /-- The names stand in the order of their segments. -/
  ordered : (tree.classNames.map segments).Pairwise (· < ·)

/-- The listing is exact when no class begins with a point. -/
theorem Holds.listsItsClasses_iff (h : Holds tree insertions) :
    ListsItsClasses tree
      ↔ ∀ name ∈ keptNames (insertions.map (·.1)), beginsWithPoint name = false := by
  constructor
  · intro hlists name hkept
    have hmem := (hlists.mem_iff name).2 ((h.exists_get?_eq_leaf_iff name).2 hkept)
    rw [h.classNames_eq_map] at hmem
    obtain ⟨source, _, rfl⟩ := List.mem_map.1 hmem
    exact beginsWithPoint_unpointed source
  · intro hplain
    have hsame : ∀ name ∈ leafNames tree, unpointed name = name := fun name hmem =>
      unpointed_of_not_beginsWithPoint (hplain name ((h.mem_leafNames_iff name).1 hmem))
    have hlisted : tree.classNames = leafNames tree := by
      rw [h.classNames_eq_map, List.map_congr_left hsame, List.map_id']
    have hordered := h.pairwise_leafNames
    rw [← hlisted] at hordered
    refine ⟨(List.pairwise_map.1 hordered).imp fun hlt hname => ?_, fun name => ?_, hordered⟩
    · exact lt_irrefl _ (hname ▸ hlt)
    · rw [hlisted, h.mem_leafNames_iff, h.exists_get?_eq_leaf_iff]

/-! ## Names that begin with a point -/

/-- A name whose segments begin another one has the same first segment. -/
theorem head?_segments_of_isPrefix {first second : String}
    (h : segments first <+: segments second) :
    (segments first).head? = (segments second).head? := by
  obtain ⟨segment, others, hfirst⟩ := exists_segments_eq_cons first
  obtain ⟨other, behind, hsecond⟩ := exists_segments_eq_cons second
  rw [hfirst, hsecond] at h ⊢
  rw [(List.cons_prefix_cons.1 h).1]
  rfl

/-- The first name that begins with a given segment is kept, as no name before it can be in its
way. -/
theorem mem_keptNames_of_find? {names : List String} {segment first : String}
    (h : names.find? (fun name => (segments name).head? = some segment) = some first) :
    first ∈ keptNames names := by
  induction names using List.reverseRecOn with
  | nil => cases h
  | append_singleton names last ih =>
    rw [keptNames_append_singleton]
    rw [List.find?_append] at h
    cases hbefore : names.find? (fun name => (segments name).head? = some segment) with
    | some earlier =>
      rw [hbefore, Option.some_or] at h
      cases h
      have hkept := ih hbefore
      split
      · exact List.mem_append_left [last] hkept
      · exact hkept
    | none =>
      rw [hbefore, Option.none_or] at h
      have hhead : (segments first).head? = some segment := by simpa using List.find?_some h
      obtain rfl := List.mem_singleton.1 (List.mem_of_find?_eq_some h)
      have hother : ∀ other ∈ keptNames names, (segments other).head? ≠ some segment := by
        intro other hkept
        simpa using List.find?_eq_none.1 hbefore other (mem_of_mem_keptNames hkept)
      have hfits : Fits (keptNames names) first := by
        refine fits_iff_segments.2 fun other hkept => ⟨fun hbegins => ?_, fun hbegins => ?_⟩
        · exact hother other hkept ((head?_segments_of_isPrefix hbegins).trans hhead)
        · exact hother other hkept ((head?_segments_of_isPrefix hbegins).symm.trans hhead)
      rw [if_pos hfits]
      exact List.mem_append_right _ List.mem_cons_self

/-- No kept name begins with a point exactly when the first name that begins blank, if there is
one, is the empty name. -/
theorem forall_keptNames_plain_iff (names : List String) :
    (∀ name ∈ keptNames names, beginsWithPoint name = false)
      ↔ ∀ name, names.find? beginsBlank = some name → name = "" := by
  have hblank : beginsBlank = fun name => decide ((segments name).head? = some "") := by
    funext name
    rw [Bool.eq_iff_iff, decide_eq_true_iff, head?_segments_eq_empty_iff]
  have hkept : ∀ name, names.find? beginsBlank = some name → name ∈ keptNames names := by
    intro name hfind
    rw [hblank] at hfind
    exact mem_keptNames_of_find? hfind
  constructor
  · intro hplain name hfind
    have hbegins := List.find?_some hfind
    rw [beginsBlank, hplain name (hkept name hfind), Bool.or_false] at hbegins
    exact of_decide_eq_true hbegins
  · intro hempty name hmem
    by_contra hpoint
    have hpointed : beginsWithPoint name = true := Bool.eq_true_of_not_eq_false hpoint
    have hbegins : beginsBlank name = true := by rw [beginsBlank, hpointed, Bool.or_true]
    cases hfind : names.find? beginsBlank with
    | none => exact List.find?_eq_none.1 hfind name (mem_of_mem_keptNames hmem) hbegins
    | some first =>
      -- the empty name is a class, and a name that begins with a point would have to be below it
      obtain rfl := hempty first hfind
      have hne : "" ≠ name := by
        rintro rfl
        cases hpointed
      have hbelow : Begins "" name := by
        obtain ⟨segment, others, hsegments⟩ := exists_segments_eq_cons name
        have hhead := (head?_segments_eq_empty_iff name).2 hbegins
        rw [hsegments, List.head?_cons, Option.some.injEq] at hhead
        refine ⟨?_, hne⟩
        rw [hsegments, hhead]
        exact List.cons_prefix_cons.2 ⟨rfl, List.nil_prefix⟩
      exact not_begins_of_mem_keptNames (hkept "" hfind) hmem hbelow

/-- Whatever is inserted, the listing of a tree gives its classes in the order of their segments,
but without leading points. So it is exact if and only if, of the inserted names that are empty
or begin with a point, the first one is the empty name. -/
theorem class_listing_exact_iff (insertions : List (String × α)) :
    (∃ classes : List String, (classes.map segments).Pairwise (· < ·)
      ∧ (∀ name, name ∈ classes ↔ ∃ slot, (ofInsertions insertions).get? name = some (.leaf slot))
      ∧ (ofInsertions insertions).classNames = classes.map unpointed)
    ∧ (ListsItsClasses (ofInsertions insertions)
      ↔ ∀ name, (insertions.map (·.1)).find? beginsBlank = some name → name = "") := by
  have hholds := holds_ofInsertions insertions
  refine ⟨⟨leafNames (ofInsertions insertions), hholds.pairwise_leafNames, fun name => ?_,
    hholds.classNames_eq_map⟩, ?_⟩
  · rw [hholds.mem_leafNames_iff, hholds.exists_get?_eq_leaf_iff]
  · rw [hholds.listsItsClasses_iff, forall_keptNames_plain_iff]

/-- An archive with an absolute entry has a class that begins with a point. It is found in the
tree and missing from the listing, where the class without the point stands twice. -/
theorem absolute_entry_listed_wrong :
    ["/Foo.class", "Foo.class"].map classNameOfEntry? = [some ".Foo", some "Foo"]
      ∧ (ofInsertions [(".Foo", 0), ("Foo", 1)]).classNames = ["Foo", "Foo"]
      ∧ (ofInsertions [(".Foo", 0), ("Foo", 1)]).get? ".Foo" = some (.leaf 0)
      ∧ ¬ ListsItsClasses (ofInsertions [(".Foo", 0), ("Foo", 1)]) := by
  have hlisted : (ofInsertions [(".Foo", 0), ("Foo", 1)]).classNames = ["Foo", "Foo"] := by
    rfl
  refine ⟨by rfl, hlisted, by rfl, fun hlists => ?_⟩
  have hnodup := hlists.nodup
  rw [hlisted] at hnodup
  revert hnodup
  decide

end PackageTree

end ClassAtlas
