import ClassAtlas.Library.SourceText
import ClassAtlas.Proofs.ClassFile.DecodeExactness
import ClassAtlas.Proofs.Library.ClassListing
import ClassAtlas.Proofs.Library.Enumeration

/-!
# Reading below a root

The path of a class is made from its name, by a slash for every point and an ending,
and is joined to the root of the classes or the sources. Such a path never leads back.
It leads below the root unless it is absolute, for joining an absolute path leaves the
root out; and it is absolute when the name begins with a point. Neither the names of
files nor those of classes are kept from beginning with one.
-/

namespace ClassAtlas

open Text

namespace Path

variable {root path relative : String} {way : List String}

/-! ## Parts of paths -/

/-- The pieces of a path that lead somewhere. -/
def steps (path : String) : List String :=
  (pieces path).filter isStep

/-- What stands in front of the steps among the parts of a path. -/
def lead (path : String) : List String :=
  if isAbsolute path then ["/"] else if (pieces path).head? = some "." then ["."] else []

/-- A path leads to something strictly below another: it goes there, and from there by names. -/
def IsBelow (root path : String) : Prop :=
  ∃ way, way ≠ [] ∧ ".." ∉ way ∧ parts path = parts root ++ way

/-- A path is below a root if it goes on behind the parts of the root and does not step back. -/
theorem isBelow_iff (root path : String) :
    IsBelow root path ↔ parts root <+: parts path ∧ parts root ≠ parts path
      ∧ ".." ∉ (parts path).drop (parts root).length := by
  constructor
  · rintro ⟨way, hway, hparent, hparts⟩
    rw [hparts, List.drop_left]
    refine ⟨List.prefix_append _ _, fun hsame => hway ?_, hparent⟩
    exact List.self_eq_append_right.1 hsame
  · rintro ⟨⟨way, hway⟩, hne, hparent⟩
    rw [← hway, List.drop_left] at hparent
    refine ⟨way, fun hnil => hne ?_, hparent, hway.symm⟩
    rw [← hway, hnil, List.append_nil]

instance (root path : String) : Decidable (IsBelow root path) :=
  decidable_of_iff _ (isBelow_iff root path).symm

/-- The parts of a path are its lead and its steps. -/
theorem parts_eq_lead_append (path : String) : parts path = lead path ++ steps path := by
  unfold parts lead steps
  split
  · rfl
  · split
    · next rest hpieces =>
      rw [hpieces, List.head?_cons, if_pos rfl]
      rfl
    · next hother =>
      rw [if_neg]
      · rfl
      · intro hhead
        obtain ⟨rest, hrest⟩ := List.head?_eq_some_iff.1 hhead
        exact hother rest hrest

theorem slash_notMem_of_mem_pieces {piece : String} (h : piece ∈ pieces path) :
    '/' ∉ piece.toList := by
  intro hslash
  have hflat : '/' ∈ ((pieces path).map String.toList).flatten :=
    List.mem_flatten.2 ⟨piece.toList, List.mem_map_of_mem h, hslash⟩
  rw [flatten_pieces, flatten_splitAtMark, List.mem_filter] at hflat
  exact absurd rfl (of_decide_eq_true hflat.2)

/-- A step is told from what stands in front of the steps. -/
theorem ne_of_mem_steps {piece : String} (h : piece ∈ steps path) :
    piece ≠ "/" ∧ piece ≠ "." := by
  obtain ⟨hpiece, hstep⟩ := List.mem_filter.1 h
  constructor
  · rintro rfl
    exact slash_notMem_of_mem_pieces hpiece (by decide)
  · rintro rfl
    exact absurd hstep (by decide)

/-- The first part tells how a path starts. -/
theorem lead_eq_filter (path : String) :
    lead path = ((parts path).take 1).filter fun part => part = "/" || part = "." := by
  have hsteps : ((steps path).take 1).filter (fun part => part = "/" || part = ".") = [] := by
    refine List.filter_eq_nil_iff.2 fun part hpart => ?_
    simp [ne_of_mem_steps (List.mem_of_mem_take hpart)]
  rw [parts_eq_lead_append]
  unfold lead
  split
  · rfl
  · split
    · rfl
    · exact hsteps.symm

/-- A path is absolute if its lead is the root. -/
theorem isAbsolute_eq (path : String) : isAbsolute path = decide (lead path = ["/"]) := by
  unfold lead
  split
  · next h => simp [h]
  · next h =>
    rw [Bool.eq_false_iff.2 h]
    split <;> rfl

/-- Only the empty path has no parts. -/
theorem parts_ne_nil (h : path ≠ "") : parts path ≠ [] := by
  have hsome : path.toList ≠ [] := fun hnil => h (String.toList_eq_nil_iff.1 hnil)
  obtain ⟨c, text, hpath⟩ := List.exists_cons_of_ne_nil hsome
  rw [parts_eq_lead_append]
  by_cases hslash : c = '/'
  · have habsolute : isAbsolute path = true := by
      rw [isAbsolute, hpath, hslash]
      rfl
    simp [lead, habsolute]
  · obtain ⟨part, others, hsplit⟩ := exists_splitAtMark_eq_cons '/' text
    have hpieces : pieces path = String.ofList (c :: part) :: others.map String.ofList := by
      rw [pieces, hpath, splitAtMark_cons_of_ne hslash hsplit, List.map_cons]
    have hne : String.ofList (c :: part) ≠ "" := by
      rw [Ne, ← String.toList_inj, String.toList_ofList]
      exact List.cons_ne_nil c part
    by_cases hpoint : String.ofList (c :: part) = "."
    · have hlead : lead path ≠ [] := by
        unfold lead
        split
        · exact List.cons_ne_nil _ _
        · rw [hpieces, List.head?_cons, hpoint, if_pos rfl]
          exact List.cons_ne_nil _ _
      exact fun hnil => hlead (List.append_eq_nil_iff.1 hnil).1
    · have hstep : isStep (String.ofList (c :: part)) = true := by
        rw [isStep, decide_eq_true hne, decide_eq_true hpoint]
        rfl
      intro hnil
      have hsteps := (List.append_eq_nil_iff.1 hnil).2
      rw [steps, hpieces, List.filter_cons_of_pos hstep] at hsteps
      exact absurd hsteps (List.cons_ne_nil _ _)

/-- A path below another starts as that does and goes on from there. -/
theorem steps_of_parts_eq (hroot : root ≠ "") (h : parts path = parts root ++ way) :
    isAbsolute path = isAbsolute root ∧ steps path = steps root ++ way := by
  have hlead : lead path = lead root := by
    obtain ⟨first, rest, hparts⟩ := List.exists_cons_of_ne_nil (parts_ne_nil hroot)
    rw [lead_eq_filter path, lead_eq_filter root, h, hparts]
    rfl
  rw [parts_eq_lead_append, parts_eq_lead_append root, hlead, List.append_assoc] at h
  exact ⟨by rw [isAbsolute_eq, isAbsolute_eq root, hlead], List.append_cancel_left h⟩

/-- Joining adds the steps of a relative path. -/
theorem parts_join (h : isAbsolute relative = false) (hhead : (pieces relative).head? ≠ some ".") :
    parts (join root relative) = parts root ++ steps relative := by
  have hrelative : lead relative = [] := by
    rw [lead, h, if_neg Bool.false_ne_true, if_neg hhead]
  by_cases hroot : root = ""
  · have hjoin : join root relative = relative := by simp [join, h, hroot]
    have hnone : parts root = [] := by
      rw [hroot]
      decide
    rw [hjoin, hnone, parts_eq_lead_append, hrelative, List.nil_append]
  · obtain ⟨front, hpieces, hfront⟩ := exists_pieces_join hroot h
    have hsteps : steps root = front.filter isStep := by
      unfold steps
      obtain hsame | hslash := hfront
      · rw [hsame]
      · rw [hslash, List.filter_append]
        exact List.append_nil _
    have hlead : lead (join root relative) = lead root := by
      unfold lead
      rw [isAbsolute_join hroot h, hpieces]
      congr 2
      cases front with
      | nil =>
        -- neither the relative path nor the one without steps starts in place
        obtain hsame | hslash := hfront
        · simp [hsame, hhead]
        · simp [hslash, hhead]
      | cons first front =>
        obtain hsame | hslash := hfront
        · rw [hsame]
          rfl
        · rw [hslash]
          rfl
    rw [parts_eq_lead_append, parts_eq_lead_append root, hlead, hsteps, steps, hpieces,
      List.filter_append, List.append_assoc]
    rfl

end Path

/-! ## What is read below a root -/

namespace FileTree

open ClassAtlas.Path

variable {tree : FileTree} {start place : List String} {content : FileContent}

/-- The file that a path leads to is at the place that the path names. -/
theorem node?_of_follow {pieces : List String} (h : tree.follow start pieces = .file content) :
    tree.node? (pieces.foldl placeBehind start) = some (.file content) := by
  induction pieces generalizing start with
  | nil => cases h
  | cons piece rest ih =>
    rw [List.foldl_cons]
    unfold placeBehind
    unfold follow at h
    split at h
    · next hstay =>
      rw [if_pos hstay]
      exact ih h
    · next hstep =>
      rw [if_neg hstep]
      split at h
      · next hparent =>
        rw [if_pos hparent]
        exact ih h
      · next hparent =>
        rw [if_neg hparent]
        split at h
        · cases h
        · split at h
          · cases h
          · exact ih h
          · next found hnode =>
            split at h
            · next hrest =>
              rw [hrest, List.foldl_nil, hnode, Located.file.inj h]
            · cases h

/-- The place of a path is come to step by step. -/
theorem placeOf_eq_foldl_steps (tree : FileTree) (path : String) :
    tree.placeOf path = (steps path).foldl placeBehind (tree.startOf path) := by
  rw [placeOf_eq_foldl, steps, List.foldl_filter]
  congr 1
  funext place piece
  unfold placeBehind
  by_cases hstep : isStep piece = true <;> simp [hstep]

/-- Whatever is read at a path below a root stands in the tree below the root. -/
theorem exists_node?_of_isBelow {root path : String} (hroot : tree.locate root = .directory place)
    (hbelow : IsBelow root path) (hread : tree.read path = .content content) :
    ∃ way, way ≠ [] ∧ tree.node? (place ++ way) = some (.file content) := by
  obtain ⟨way, hway, hparent, hparts⟩ := hbelow
  obtain ⟨_, hne, _, hfollow⟩ := followed_of_locate hroot nofun nofun
  have hplace : tree.placeOf root = place := by
    rw [placeOf_eq_foldl]
    exact foldl_placeBehind_of_follow hfollow
  have hfile : tree.locate path = .file content := by
    unfold read at hread
    split at hread <;> cases hread
    assumption
  obtain ⟨habsolute, hsteps⟩ := steps_of_parts_eq hne hparts
  have hstart : tree.startOf path = tree.startOf root := by
    rw [startOf, startOf, habsolute]
  have hnames : ∀ name ∈ way, isStep name = true := by
    intro name hname
    have hmem : name ∈ steps path := hsteps ▸ List.mem_append_right _ hname
    exact (List.mem_filter.1 hmem).2
  have hfound : tree.placeOf path = place ++ way := by
    rw [placeOf_eq_foldl_steps, hsteps, hstart, List.foldl_append, ← placeOf_eq_foldl_steps, hplace,
      foldl_placeBehind_of_forall fun name hname hback => hparent (hback ▸ hname),
      List.filter_eq_self.2 hnames]
  obtain ⟨_, _, _, hfollowed⟩ := followed_of_locate hfile nofun nofun
  have hnode := node?_of_follow hfollowed
  rw [← placeOf_eq_foldl, hfound] at hnode
  exact ⟨way, hway, hnode⟩

end FileTree

/-! ## Paths of classes -/

variable {name ending : String}

/-- The endings of the files of classes and of their sources. -/
def fileEndings : List String := [".class", ".java"]

/-- The path of a class is a row of folders without points, and a file name with the ending. -/
theorem exists_pieces_entryNameOfClass (name : String) (hending : ending ∈ fileEndings) :
    ∃ folders file, Path.pieces (entryNameOfClass name ending) = folders ++ [file ++ ending]
      ∧ ∀ folder ∈ folders, '.' ∉ folder.toList := by
  have hslash : '/' ∉ ending.toList := by
    revert ending
    decide
  obtain ⟨parts, last, hfront, hboth⟩ :=
    exists_splitAtMark_append hslash (replaceMark '.' '/' name).toList
  refine ⟨parts.map String.ofList, String.ofList last, ?_, ?_⟩
  · rw [Path.pieces, entryNameOfClass, String.toList_append, hboth, List.map_append]
    simp
  · intro folder hfolder hpoint
    obtain ⟨part, hpart, rfl⟩ := List.mem_map.1 hfolder
    rw [String.toList_ofList] at hpoint
    have hflat : '.' ∈ (splitAtMark '/' (replaceMark '.' '/' name).toList).flatten := by
      rw [hfront]
      exact List.mem_flatten.2 ⟨part, List.mem_append_left _ hpart, hpoint⟩
    rw [flatten_splitAtMark, List.mem_filter] at hflat
    exact notMem_replaceMark (by decide) name hflat.1

/-- The path of a class never stays in place at its start, leads somewhere, and never back. -/
theorem steps_entryNameOfClass (name : String) (hending : ending ∈ fileEndings) :
    (Path.pieces (entryNameOfClass name ending)).head? ≠ some "."
      ∧ Path.steps (entryNameOfClass name ending) ≠ []
      ∧ ".." ∉ Path.steps (entryNameOfClass name ending) := by
  have hlong : 2 < ending.toList.length := by
    revert ending
    decide
  obtain ⟨folders, file, hpieces, hfolders⟩ := exists_pieces_entryNameOfClass name hending
  have hne : ∀ short : String, short.toList.length ≤ 2 → file ++ ending ≠ short := by
    rintro short hshort rfl
    rw [String.toList_append, List.length_append] at hshort
    omega
  have hstep : Path.isStep (file ++ ending) = true := by
    simp [Path.isStep, hne "" (by decide), hne "." (by decide)]
  refine ⟨?_, ?_, ?_⟩
  · rw [hpieces]
    cases folders with
    | nil => simpa using hne "." (by decide)
    | cons folder folders =>
      rw [List.cons_append, List.head?_cons, Ne, Option.some.injEq]
      rintro rfl
      exact hfolders "." List.mem_cons_self (by decide)
  · rw [Path.steps, hpieces]
    exact List.ne_nil_of_mem (List.mem_filter.2 ⟨List.mem_append_right _ List.mem_cons_self, hstep⟩)
  · intro hparent
    have hmem := (List.mem_filter.1 hparent).1
    rw [hpieces, List.mem_append, List.mem_singleton] at hmem
    obtain hfolder | hfile := hmem
    · exact hfolders ".." hfolder (by decide)
    · exact hne ".." (by decide) hfile.symm

/-- The path of a class is absolute when the name begins with a point. -/
theorem isAbsolute_entryNameOfClass (hslash : '/' ∉ name.toList) (hending : ending ∈ fileEndings) :
    Path.isAbsolute (entryNameOfClass name ending) = beginsWithPoint name := by
  have hhead : ending.toList.head? = some '.' := by
    revert ending
    decide
  unfold Path.isAbsolute beginsWithPoint entryNameOfClass replaceMark
  rw [String.toList_append, String.toList_ofList]
  cases hname : name.toList with
  | nil => simp [hhead]
  | cons c chars =>
    rw [hname, List.mem_cons, not_or] at hslash
    by_cases hpoint : c = '.'
    · simp [hpoint]
    · simp [hpoint, Ne.symm hslash.1]

/-- The path of a class, joined to a root, leads below the root unless it is absolute. -/
theorem isBelow_join_iff (root : String) (hslash : '/' ∉ name.toList)
    (hending : ending ∈ fileEndings) :
    Path.IsBelow root (Path.join root (entryNameOfClass name ending))
      ↔ (beginsWithPoint name = true → Path.IsBelow root (entryNameOfClass name ending)) := by
  have habsolute := isAbsolute_entryNameOfClass hslash hending
  cases hpoint : beginsWithPoint name with
  | true =>
    have hjoin : Path.join root (entryNameOfClass name ending) = entryNameOfClass name ending := by
      rw [Path.join, habsolute, hpoint, if_pos rfl]
    rw [hjoin]
    exact ⟨fun h _ => h, fun h => h rfl⟩
  | false =>
    obtain ⟨hhead, hsteps, hparent⟩ := steps_entryNameOfClass name hending
    have hbelow : Path.IsBelow root (Path.join root (entryNameOfClass name ending)) :=
      ⟨_, hsteps, hparent, Path.parts_join (habsolute.trans hpoint) hhead⟩
    exact iff_of_true hbelow nofun

namespace SingleSource

/-- The names of a directory are made of paths, without the slashes. -/
theorem slash_notMem_of_openDirectory {tree : FileTree} {root : String} {source : SingleSource}
    (hopen : openDirectory tree root = .ok source) (hname : name ∈ source.names) :
    '/' ∉ name.toList := by
  unfold openDirectory at hopen
  split at hopen <;> cases hopen
  obtain ⟨⟨way, node⟩, _, hbelow⟩ := List.mem_filterMap.1 hname
  dsimp only at hbelow
  unfold classNameBelow? at hbelow
  split at hbelow
  · cases hbelow
  · split at hbelow
    · cases hbelow
    · obtain ⟨stem, _, rfl⟩ := exists_stem_of_classNameOfEntry? hbelow
      exact notMem_replaceMark (by decide) stem

end SingleSource

/-- Names of decoded classes have no slashes. -/
theorem slash_notMem_of_decode {bytes : Bytes} {description : ClassDescription}
    (h : decode bytes = .ok description) : '/' ∉ description.name.toList := by
  obtain ⟨raw, hmeans, _⟩ := decode_eq_ok_iff_exists.1 h
  obtain ⟨internal, _, hname⟩ := hmeans.name_named
  rw [← hname]
  exact notMem_replaceMark (by decide) internal

/-- The outermost class around a class has a name that begins in the same way. -/
theorem beginsWithPoint_outermost (name : String) :
    beginsWithPoint (SourceLocation.outermost name) = beginsWithPoint name := by
  unfold beginsWithPoint SourceLocation.outermost
  rw [String.toList_ofList]
  cases name.toList with
  | nil => rfl
  | cons c chars =>
    by_cases hmark : c = '$'
    · simp [hmark]
    · simp [hmark]

/-- The outermost class of a name without slashes has none either. -/
theorem slash_notMem_outermost (h : '/' ∉ name.toList) :
    '/' ∉ (SourceLocation.outermost name).toList := by
  intro hslash
  rw [SourceLocation.outermost, String.toList_ofList] at hslash
  exact h ((List.takeWhile_prefix _).mem hslash)

/-- For every root: the path that is opened for an enumerated class, and the one that is opened
for the source of a decoded class, lead below the root exactly when the name does not begin with
a point, or the absolute path that such a name is made into happens to lead below the root. What
is read at a path below the root of a directory stands below the place of the directory. -/
theorem opened_path_below_iff (root : String) :
    (∀ tree source name, SingleSource.openDirectory tree root = .ok source →
      name ∈ source.names →
        (Path.IsBelow root (SingleSource.classPath root name)
          ↔ (beginsWithPoint name = true → Path.IsBelow root (entryNameOfClass name ".class"))))
    ∧ (∀ bytes description, decode bytes = .ok description →
        (Path.IsBelow root (Path.join root (SourceLocation.sourceEntry description.name))
          ↔ (beginsWithPoint description.name = true →
            Path.IsBelow root (SourceLocation.sourceEntry description.name))))
    ∧ ∀ (tree : FileTree) path place content, tree.locate root = .directory place →
        Path.IsBelow root path → tree.read path = .content content →
          ∃ way, way ≠ [] ∧ tree.node? (place ++ way) = some (.file content) := by
  refine ⟨?_, ?_, ?_⟩
  · intro tree source name hopen hname
    have hslash := SingleSource.slash_notMem_of_openDirectory hopen hname
    exact isBelow_join_iff root hslash (by decide)
  · intro bytes description hdecode
    have hslash := slash_notMem_outermost (slash_notMem_of_decode hdecode)
    rw [← beginsWithPoint_outermost description.name]
    exact isBelow_join_iff root hslash (by decide)
  · intro tree path place content
    exact FileTree.exists_node?_of_isBelow

/-- A library in which the name of one file begins with a point, and a file that does not belong
to it. -/
def hiddenTree : FileTree :=
  ⟨[(["Foo.class"], .file (.plain [0x01])), (["lib"], .directory),
    (["lib", ".Foo.class"], .file (.plain [0x02])), (["lib", "a"], .directory),
    (["lib", "a", "B.class"], .file (.plain [0x03]))], []⟩

theorem openDirectory_hiddenTree :
    SingleSource.openDirectory hiddenTree "lib" = .ok (.directory "lib" [".Foo", "a.B"]) := by
  rfl

/-- The path of the other class leads below the library. -/
theorem plain_class_path_below : Path.IsBelow "lib" (SingleSource.classPath "lib" "a.B") :=
  ((opened_path_below_iff "lib").1 hiddenTree _ "a.B" openDirectory_hiddenTree
    (by simp [SingleSource.names])).2 (by decide +kernel)

/-- A class without members, of which the internal name begins with a slash. -/
def rootedFile : Bytes :=
  [0xCA, 0xFE, 0xBA, 0xBE, 0, 0, 0, 0x34, 0, 3, 7, 0, 2, 1, 0, 4, 0x2F, 0x46, 0x6F, 0x6F, 0, 0x21,
    0, 1, 0, 0, 0, 0, 0, 0, 0, 0, 0, 0]

/-- An enumerated class is read from a file outside of its library, and the source of a class is
looked for outside of the sources. -/
theorem pointed_name_path_outside :
    (∃ names, SingleSource.openDirectory hiddenTree "lib" = .ok (.directory "lib" names)
      ∧ ".Foo" ∈ names ∧ ¬ Path.IsBelow "lib" (SingleSource.classPath "lib" ".Foo")
      ∧ (SingleSource.directory "lib" names).read hiddenTree ".Foo" = .content [0x01])
    ∧ ∃ description, decode rootedFile = .ok description
      ∧ ¬ Path.IsBelow "src" (Path.join "src" (SourceLocation.sourceEntry description.name)) := by
  constructor
  · exact ⟨_, openDirectory_hiddenTree, by simp, by decide +kernel, by decide +kernel⟩
  · have hname : (decode rootedFile).toOption.map (·.name) = some ".Foo" := by decide +kernel
    cases hread : decode rootedFile with
    | error error =>
      rw [hread] at hname
      cases hname
    | ok description =>
      rw [hread] at hname
      have hfoo : description.name = ".Foo" := Option.some.inj hname
      exact ⟨description, rfl, by rw [hfoo]; decide +kernel⟩

end ClassAtlas
