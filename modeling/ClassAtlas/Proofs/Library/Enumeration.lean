import ClassAtlas.Library.ClassSource
import ClassAtlas.Proofs.Storage.Places

/-!
# Reading what was enumerated

Enumeration turns the path of an entry into the name of a class, and reading turns
the name back into a path. Every slash becomes a point on the way there and every
point a slash on the way back, so the path comes back as it was when its only point
is that of its ending. A class is read from an entry of its own when it has such an
entry; otherwise reading opens something else, or nothing.
-/

namespace ClassAtlas

open Text

variable {tree : FileTree} {entry name root : String}

/-- Whether the only point of an entry is that of its ending. -/
def hasSinglePoint (entry : String) : Bool :=
  entry.toList.count '.' = 1

/-- The ending of class files brings one point. -/
theorem count_point_append_ending (stem : String) :
    (stem ++ ".class").toList.count '.' = stem.toList.count '.' + 1 := by
  rw [String.toList_append, List.count_append]
  rfl

/-- The path that is opened for a class has a single point. -/
theorem count_point_entryNameOfClass (name : String) :
    (entryNameOfClass name ".class").toList.count '.' = 1 := by
  have hnone : (replaceMark '.' '/' name).toList.count '.' = 0 :=
    List.count_eq_zero.2 (notMem_replaceMark (by decide) name)
  rw [entryNameOfClass, count_point_append_ending, hnone]

/-- No piece of that path leads back. -/
theorem ne_parent_of_mem_pieces {piece : String}
    (h : piece ∈ Path.pieces (entryNameOfClass name ".class")) : piece ≠ ".." := by
  intro hparent
  have hpoints := Path.count_le_of_sublist_pieces (c := '.') (by decide)
    (List.singleton_sublist.2 h)
  have hone := count_point_entryNameOfClass name
  have htwo : ([piece].map String.toList).flatten.count '.' = 2 := by
    rw [hparent]
    rfl
  omega

/-- An entry of a class is a path with the ending of class files, of which the name is
the dotted spelling. -/
theorem exists_stem_of_classNameOfEntry? (h : classNameOfEntry? entry = some name) :
    ∃ stem, entry = stem ++ ".class" ∧ name = replaceMark '/' '.' stem := by
  unfold classNameOfEntry? at h
  cases hstem : dropEnding? ".class" entry with
  | none =>
    rw [hstem] at h
    cases h
  | some stem =>
    rw [hstem] at h
    dsimp only at h
    split at h
    · cases h
    · exact ⟨stem, (dropEnding?_eq_some_iff ".class" entry stem).1 hstem,
        (Option.some.inj h).symm⟩

theorem count_point_pos (h : classNameOfEntry? entry = some name) :
    0 < entry.toList.count '.' := by
  obtain ⟨stem, hentry, _⟩ := exists_stem_of_classNameOfEntry? h
  rw [hentry, count_point_append_ending]
  omega

/-- Reading opens the path that a class was enumerated by exactly when the path has a single
point. -/
theorem entryNameOfClass_eq_iff (h : classNameOfEntry? entry = some name) :
    entryNameOfClass name ".class" = entry ↔ hasSinglePoint entry = true := by
  constructor
  · intro hsame
    rw [← hsame]
    exact decide_eq_true (count_point_entryNameOfClass name)
  · intro hpoint
    obtain ⟨stem, hentry, hname⟩ := exists_stem_of_classNameOfEntry? h
    have hcount : entry.toList.count '.' = 1 := of_decide_eq_true hpoint
    rw [hentry, count_point_append_ending] at hcount
    have hnone : '.' ∉ stem.toList := List.count_eq_zero.1 (by omega)
    rw [entryNameOfClass, hname, replaceMark_replaceMark hnone, hentry]

namespace SingleSource

variable {source : SingleSource} {place way : List String} {content : FileContent}

/-- A file below a root directory from which the name of a class was taken. -/
structure IsFileOf (tree : FileTree) (root name : String) (place way : List String)
    (content : FileContent) : Prop where
  /-- The root is at this place. -/
  located : tree.locate root = .directory place
  /-- The file is found on this way from the root. -/
  found : (way, .file content) ∈ tree.below place
  /-- Its path gives the name of the class. -/
  named : classNameBelow? root way (.file content) = some name

/-- The entries from which the name of a class was taken, with their bytes. -/
def HasEntry (tree : FileTree) (name entry : String) (bytes : Bytes) : SingleSource → Prop
  | archive entries =>
    classNameOfEntry? entry = some name
      ∧ ∃ found ∈ entries, found.name = entry ∧ found.content = bytes
  | directory root _ =>
    ∃ place way content, IsFileOf tree root name place way content
      ∧ joined "/" way = entry ∧ content.bytes = bytes
  | classFile _ _ => False

/-- Reading a class gives the bytes of an entry from which its name was taken. -/
def ReadsOwnEntry (tree : FileTree) (name : String) (source : SingleSource) : Prop :=
  ∃ entry bytes, source.HasEntry tree name entry bytes
    ∧ source.read tree name = .content bytes

/-- The name of a class was taken from an entry with a single point. -/
def HasPlainEntry (tree : FileTree) (name : String) (source : SingleSource) : Prop :=
  ∃ entry bytes, source.HasEntry tree name entry bytes ∧ hasSinglePoint entry = true

/-- The path that is opened for a class is short enough to be followed. -/
def PathFits (name : String) : SingleSource → Prop
  | directory root _ => isFollowable (classPath root name) = true
  | archive _ | classFile _ _ => True

/-- What is opened for a class is none of its entries, but has the bytes of one. -/
def HasStrayCopy (tree : FileTree) (name : String) : SingleSource → Prop
  | archive entries =>
    ∃ stray ∈ entries, stray.name = entryNameOfClass name ".class"
      ∧ classNameOfEntry? stray.name ≠ some name
      ∧ ∃ entry, (archive entries).HasEntry tree name entry stray.content
  | directory root names =>
    ∃ stray, tree.locate (classPath root name) = .file stray
      ∧ (∀ place way content, IsFileOf tree root name place way content →
        tree.placeOf (classPath root name) ≠ place ++ way)
      ∧ ∃ entry, (directory root names).HasEntry tree name entry stray.bytes
  | classFile _ _ => False

/-- Entries have names of their own and can all be read. -/
def Intact : SingleSource → Prop
  | archive entries =>
    (entries.map ArchiveEntry.name).Nodup ∧ ∀ entry ∈ entries, entry.corrupt = false
  | directory _ _ | classFile _ _ => True

/-- Reading a class of an intact archive gives the content of the entry that is named for it. -/
theorem read_archive (tree : FileTree) {entries : List ArchiveEntry}
    (h : (archive entries).Intact) {found : ArchiveEntry} (hmem : found ∈ entries)
    (hname : found.name = entryNameOfClass name ".class") :
    (archive entries).read tree name = .content found.content := by
  have hfind := (find?_key_eq_some_iff h.1 (entryNameOfClass name ".class") found).2 ⟨hmem, hname⟩
  have hintact := h.2 found hmem
  simp [read, hfind, hintact]

/-- A class of an archive is read from an entry of its own exactly if it has a plain entry or a
stray copy. -/
theorem readsOwnEntry_archive_iff {entries : List ArchiveEntry} (h : (archive entries).Intact) :
    (archive entries).ReadsOwnEntry tree name
      ↔ (archive entries).HasPlainEntry tree name ∨ (archive entries).HasStrayCopy tree name := by
  constructor
  · intro ⟨entry, bytes, hentry, hread⟩
    cases hfind : entries.find? (·.name = entryNameOfClass name ".class") with
    | none =>
      simp [read, hfind] at hread
    | some opened =>
      obtain ⟨hmem, hname⟩ := (find?_key_eq_some_iff h.1 _ opened).1 hfind
      rw [read_archive tree h hmem hname] at hread
      have hbytes : opened.content = bytes := ClassReading.content.inj hread
      by_cases hown : classNameOfEntry? opened.name = some name
      · have hpoint := (entryNameOfClass_eq_iff hown).1 hname.symm
        exact .inl ⟨opened.name, bytes, ⟨hown, opened, hmem, rfl, hbytes⟩, hpoint⟩
      · exact .inr ⟨opened, hmem, hname, hown, entry, hbytes ▸ hentry⟩
  · rintro (⟨entry, bytes, ⟨hown, found, hmem, hname, hbytes⟩, hpoint⟩ |
      ⟨stray, hmem, hname, _, entry, hentry⟩)
    · have hpath := (entryNameOfClass_eq_iff hown).2 hpoint
      have hread := read_archive tree h hmem (hname.trans hpath.symm)
      exact ⟨entry, bytes, ⟨hown, found, hmem, hname, hbytes⟩, hbytes ▸ hread⟩
    · exact ⟨entry, stray.content, hentry, read_archive tree h hmem hname⟩

namespace IsFileOf

/-- The file of a class has the name of the class. -/
theorem classNameOfEntry?_eq (h : IsFileOf tree root name place way content) :
    classNameOfEntry? (joined "/" way) = some name := by
  have hnamed := h.named
  unfold classNameBelow? at hnamed
  split at hnamed
  · cases hnamed
  · simpa using hnamed

theorem way_ne_nil (h : IsFileOf tree root name place way content) : way ≠ [] :=
  ((tree.mem_below_iff place way _).1 h.found).1

theorem mem_nodes (h : IsFileOf tree root name place way content) :
    (place ++ way, .file content) ∈ tree.nodes :=
  ((tree.mem_below_iff place way _).1 h.found).2

theorem isFileName (h : IsFileOf tree root name place way content) (htree : tree.WellFormed) :
    ∀ piece ∈ way, IsFileName piece :=
  fun piece hpiece => htree.names _ h.mem_nodes piece (List.mem_append_right place hpiece)

/-- A file of a class is opened when its path has a single point and is short enough. -/
theorem locate_classPath (h : IsFileOf tree root name place way content)
    (htree : tree.WellFormed) (hpoint : hasSinglePoint (joined "/" way) = true)
    (hfits : isFollowable (classPath root name) = true) :
    tree.locate (classPath root name) = .file content := by
  have hnames := h.isFileName htree
  have hpath := (entryNameOfClass_eq_iff h.classNameOfEntry?_eq).2 hpoint
  have hnonempty : place ++ way ≠ [] := List.append_ne_nil_of_right_ne_nil place h.way_ne_nil
  have hnode := (htree.node?_eq_some_iff hnonempty _).2 h.mem_nodes
  unfold classPath at hfits ⊢
  rw [hpath] at hfits ⊢
  rw [FileTree.locate_join h.located (Path.isAbsolute_joined h.way_ne_nil hnames)
    (Path.zero_notMem_joined h.way_ne_nil hnames) hfits, Path.pieces_joined h.way_ne_nil hnames]
  exact htree.follow_way h.way_ne_nil hnode

/-- The names on the way to a file that is opened for a class are pieces of the path that is
made from the name of the class. -/
theorem suffix_of_placeOf (h : IsFileOf tree root name place way content)
    (hplace : tree.placeOf (classPath root name) = place ++ way) :
    way <:+ (Path.pieces (entryNameOfClass name ".class")).filter Path.isStep := by
  have hback : ∀ piece ∈ Path.pieces (entryNameOfClass name ".class"), piece ≠ ".." :=
    fun piece hpiece => ne_parent_of_mem_pieces hpiece
  unfold classPath at hplace
  -- a class name that starts with a point makes an absolute path, and the root is left out
  by_cases habsolute : Path.isAbsolute (entryNameOfClass name ".class") = true
  · have hjoin : Path.join root (entryNameOfClass name ".class")
        = entryNameOfClass name ".class" := by
      unfold Path.join
      rw [if_pos habsolute]
    have hstart : tree.startOf (entryNameOfClass name ".class") = [] := by
      unfold FileTree.startOf
      rw [if_pos habsolute]
    rw [hjoin, FileTree.placeOf_eq_foldl, hstart, FileTree.foldl_placeBehind_of_forall hback,
      List.nil_append] at hplace
    exact ⟨place, hplace.symm⟩
  · rw [FileTree.placeOf_join h.located (Bool.eq_false_iff.2 habsolute),
      FileTree.foldl_placeBehind_of_forall hback, List.append_right_inj] at hplace
    exact ⟨[], hplace.symm⟩

/-- A file that is opened for its class has a path with a single point. -/
theorem hasSinglePoint_of_placeOf (h : IsFileOf tree root name place way content)
    (htree : tree.WellFormed) (hplace : tree.placeOf (classPath root name) = place ++ way) :
    hasSinglePoint (joined "/" way) = true := by
  have hsublist := (h.suffix_of_placeOf hplace).sublist.trans List.filter_sublist
  have hpoints := Path.count_le_of_sublist_pieces (c := '.') (by decide) hsublist
  have hone := count_point_entryNameOfClass name
  have hjoined := Path.count_flatten_pieces (c := '.') (by decide) (joined "/" way)
  rw [Path.pieces_joined h.way_ne_nil (h.isFileName htree)] at hjoined
  have hpos := count_point_pos h.classNameOfEntry?_eq
  refine decide_eq_true ?_
  omega

end IsFileOf

/-- Reading a class of a directory gives the bytes of the file at its path. -/
theorem read_directory_eq_content_iff {names : List String} {bytes : Bytes} :
    (directory root names).read tree name = .content bytes
      ↔ ∃ opened, tree.locate (classPath root name) = .file opened ∧ opened.bytes = bytes := by
  cases hlocate : tree.locate (classPath root name) <;>
    simp [read, FileTree.read, hlocate, ClassReading.ofFile]

/-- A class of a directory is read from a file of its own exactly if it has a plain entry with a
path that fits, or a stray copy. -/
theorem readsOwnEntry_directory_iff (htree : tree.WellFormed) (root : String)
    (names : List String) (name : String) :
    (directory root names).ReadsOwnEntry tree name
      ↔ (directory root names).HasPlainEntry tree name ∧ (directory root names).PathFits name
        ∨ (directory root names).HasStrayCopy tree name := by
  constructor
  · intro ⟨entry, bytes, hentry, hread⟩
    obtain ⟨opened, hlocate, hbytes⟩ := read_directory_eq_content_iff.1 hread
    by_cases hown : ∃ place way content, IsFileOf tree root name place way content
        ∧ tree.placeOf (classPath root name) = place ++ way
    · obtain ⟨place, way, content, hfile, hplace⟩ := hown
      have hpoint := hfile.hasSinglePoint_of_placeOf htree hplace
      have hfits := (FileTree.followed_of_locate hlocate nofun nofun).2.2.1
      exact .inl ⟨⟨_, _, ⟨place, way, content, hfile, rfl, rfl⟩, hpoint⟩, hfits⟩
    · refine .inr ⟨opened, hlocate, fun place way content hfile hplace => ?_, entry,
        hbytes ▸ hentry⟩
      exact hown ⟨place, way, content, hfile, hplace⟩
  · rintro (⟨⟨entry, bytes, hentry, hpoint⟩, hfits⟩ | ⟨stray, hlocate, _, entry, hentry⟩)
    · obtain ⟨place, way, content, hfile, hway, hbytes⟩ := hentry
      have hlocate := hfile.locate_classPath htree (hway ▸ hpoint) hfits
      exact ⟨entry, bytes, ⟨place, way, content, hfile, hway, hbytes⟩,
        read_directory_eq_content_iff.2 ⟨content, hlocate, hbytes⟩⟩
    · exact ⟨entry, stray.bytes, hentry, read_directory_eq_content_iff.2 ⟨stray, hlocate, rfl⟩⟩

/-- Every enumerated class of an archive or a directory is read from an entry that its name
was taken from exactly when such an entry has a single point and a path that fits, unless what
stands at the path of the class happens to have the same bytes. -/
theorem enumerated_class_readable_iff {path : String} (htree : tree.WellFormed)
    (hopen : openArchive tree path = .ok source ∨ openDirectory tree path = .ok source)
    (hintact : source.Intact) :
    ∀ name ∈ source.names, source.ReadsOwnEntry tree name
      ↔ source.HasPlainEntry tree name ∧ source.PathFits name
        ∨ source.HasStrayCopy tree name := by
  intro name _
  cases source with
  | archive entries =>
    have hfits : (archive entries).PathFits name := trivial
    rw [readsOwnEntry_archive_iff hintact, and_iff_left hfits]
  | directory root names => exact readsOwnEntry_directory_iff htree root names name
  | classFile file declared =>
    -- neither way of opening a path gives a single class file
    unfold openArchive openDirectory at hopen
    cases hlocate : tree.locate path with
    | file content => cases content <;> simp [hlocate] at hopen
    | missing => simp [hlocate] at hopen
    | unreachable => simp [hlocate] at hopen
    | directory place => simp [hlocate] at hopen

/-- The entries of an archive in which one folder has a point in its name. -/
def pointedEntries : List ArchiveEntry :=
  [⟨"a/B.class", [0x01], false⟩, ⟨"a.b/C.class", [0x02], false⟩]

/-- The tree with this archive and a directory with such folders. -/
def pointedTree : FileTree :=
  ⟨[(["lib.jar"], .file (.archive pointedEntries)), (["classes"], .directory),
    (["classes", "a"], .directory), (["classes", "a", "B.class"], .file (.plain [0x01])),
    (["classes", "a.b"], .directory), (["classes", "a.b", "C.class"], .file (.plain [0x02])),
    (["classes", "a."], .directory), (["classes", "a.", "B.class"], .file (.plain [0x03]))], []⟩

theorem wellFormed_pointedTree : pointedTree.WellFormed := by
  decide +kernel

theorem openArchive_pointedTree :
    openArchive pointedTree "lib.jar" = .ok (.archive pointedEntries) := by
  rfl

theorem openDirectory_pointedTree :
    openDirectory pointedTree "classes"
      = .ok (.directory "classes" ["a.B", "a..B", "a.b.C"]) := by
  rfl

/-- The class without a point in its folder is read in both places. -/
theorem plain_folder_readable :
    (archive pointedEntries).ReadsOwnEntry pointedTree "a.B"
      ∧ (directory "classes" ["a.B", "a..B", "a.b.C"]).ReadsOwnEntry pointedTree "a.B" := by
  constructor
  · have hentry : (archive pointedEntries).HasEntry pointedTree "a.B" "a/B.class" [0x01] :=
      ⟨by decide, ⟨"a/B.class", [0x01], false⟩, by decide, rfl, rfl⟩
    have hintact : (archive pointedEntries).Intact := ⟨by decide, by decide⟩
    exact (enumerated_class_readable_iff wellFormed_pointedTree (.inl openArchive_pointedTree)
      hintact "a.B" (by decide +kernel)).2 (.inl ⟨⟨_, _, hentry, by decide +kernel⟩, trivial⟩)
  · have hfile : IsFileOf pointedTree "classes" "a.B" ["classes"] ["a", "B.class"]
        (.plain [0x01]) :=
      ⟨by decide +kernel, by decide +kernel, by decide +kernel⟩
    have hfits : isFollowable (classPath "classes" "a.B") = true := by decide +kernel
    exact (enumerated_class_readable_iff wellFormed_pointedTree (.inr openDirectory_pointedTree)
      trivial "a.B" (by decide +kernel)).2
        (.inl ⟨⟨_, _, ⟨_, _, _, hfile, rfl, rfl⟩, by decide +kernel⟩, hfits⟩)

/-- Not every enumerated class can be read: with a point in the name of its folder, a class is
absent from its archive and its directory, or the bytes of another class are read. -/
theorem pointed_folder_unreadable :
    (openArchive pointedTree "lib.jar" = .ok (.archive pointedEntries)
      ∧ "a.b.C" ∈ (archive pointedEntries).names
      ∧ (archive pointedEntries).read pointedTree "a.b.C" = .absent)
    ∧ ∃ names, openDirectory pointedTree "classes" = .ok (.directory "classes" names)
      ∧ "a.b.C" ∈ names ∧ (directory "classes" names).read pointedTree "a.b.C" = .absent
      ∧ "a..B" ∈ names ∧ ¬ (directory "classes" names).ReadsOwnEntry pointedTree "a..B" := by
  have hlisted : "a.b.C" ∈ (archive pointedEntries).names := by decide +kernel
  have harchive : (archive pointedEntries).read pointedTree "a.b.C" = .absent := by
    decide +kernel
  have hdirectory : (directory "classes" ["a.B", "a..B", "a.b.C"]).read pointedTree "a.b.C"
      = .absent := by
    decide +kernel
  refine ⟨⟨openArchive_pointedTree, hlisted, harchive⟩, ["a.B", "a..B", "a.b.C"],
    openDirectory_pointedTree, by simp, hdirectory, by simp, ?_⟩
  intro ⟨entry, bytes, ⟨place, way, content, hfile, _, hbytes⟩, hread⟩
  have hplace : place = ["classes"] := by
    have hlocated : pointedTree.locate "classes" = .directory ["classes"] := by decide +kernel
    exact Located.directory.inj (hfile.located.symm.trans hlocated)
  have hown : ∀ item ∈ pointedTree.below ["classes"],
      classNameBelow? "classes" item.1 item.2 = some "a..B" →
        item.2 = .file (.plain [0x03]) := by
    decide +kernel
  have hmem : (way, FileNode.file content) ∈ pointedTree.below ["classes"] :=
    hplace ▸ hfile.found
  have hcontent := hown (way, .file content) hmem hfile.named
  have hopened : (directory "classes" ["a.B", "a..B", "a.b.C"]).read pointedTree "a..B"
      = .content [0x01] := by
    decide +kernel
  have hsame : bytes = [0x01] := ClassReading.content.inj (hread.symm.trans hopened)
  have hother : content = .plain [0x03] := FileNode.file.inj hcontent
  rw [hother, hsame] at hbytes
  revert hbytes
  decide

end SingleSource

end ClassAtlas
