import ClassAtlas.Proofs.Text.Splitting
import ClassAtlas.Storage.FileTree
import Mathlib.Data.List.Flatten
import Mathlib.Data.List.Induction
import Mathlib.Data.List.Nodup
import Mathlib.Tactic.MkIffOfInductiveProp

/-!
# Places of a file tree

In a tree as file systems have it, every place has one node, the places on the way
to a node are directories, and names are such that a path can be made of them. A
path that is joined to a directory is then followed from there, and following the
names on the way to a file arrives at the file.
-/

namespace ClassAtlas

/-- What a file can be called. -/
@[mk_iff]
structure IsFileName (name : String) : Prop where
  /-- It leads somewhere. -/
  isStep : Path.isStep name = true
  /-- It does not lead back. -/
  ne_parent : name ≠ ".."
  /-- It is one piece of a path. -/
  no_slash : '/' ∉ name.toList
  /-- It has no zero character. -/
  no_zero : Char.ofNat 0 ∉ name.toList
  /-- It is short enough. -/
  length_le : name.utf8ByteSize ≤ maxNameLength

instance (name : String) : Decidable (IsFileName name) :=
  decidable_of_iff _ (isFileName_iff name).symm

/-- A tree as file systems have it. -/
@[mk_iff]
structure FileTree.WellFormed (tree : FileTree) : Prop where
  /-- Every name is one that files can have. -/
  names : ∀ node ∈ tree.nodes, ∀ name ∈ node.1, IsFileName name
  /-- No place is listed twice. -/
  places : (tree.nodes.map (·.1)).Nodup
  /-- Everything is in a directory. -/
  parents : ∀ node ∈ tree.nodes, tree.node? node.1.dropLast = some .directory

instance (tree : FileTree) : Decidable tree.WellFormed :=
  decidable_of_iff _ (FileTree.wellFormed_iff tree).symm

/-- Among items with distinct keys, the first one with a key is the only one. -/
theorem find?_key_eq_some_iff {α κ : Type} [DecidableEq κ] {key : α → κ} {items : List α}
    (hdistinct : (items.map key).Nodup) (wanted : κ) (item : α) :
    items.find? (fun other => key other = wanted) = some item
      ↔ item ∈ items ∧ key item = wanted := by
  constructor
  · intro hfind
    have htest := List.find?_some hfind
    exact ⟨List.mem_of_find?_eq_some hfind, of_decide_eq_true htest⟩
  · intro ⟨hmem, hkey⟩
    have hfound : (items.find? fun other => key other = wanted).isSome :=
      List.find?_isSome.2 ⟨item, hmem, decide_eq_true hkey⟩
    obtain ⟨found, hfind⟩ := Option.isSome_iff_exists.1 hfound
    have htest := List.find?_some hfind
    have hsame : key found = key item := (of_decide_eq_true htest).trans hkey.symm
    rw [hfind, List.inj_on_of_nodup_map hdistinct (List.mem_of_find?_eq_some hfind) hmem hsame]

namespace Path

variable {base relative path : String}

/-- The pieces hold what the path holds between its slashes. -/
theorem flatten_pieces (path : String) :
    ((pieces path).map String.toList).flatten = (Text.splitAtMark '/' path.toList).flatten := by
  have hread : (String.toList ∘ String.ofList) = id := funext fun _ => String.toList_ofList
  rw [pieces, List.map_map, hread, List.map_id]

/-- Any character but the slash stands in the pieces as often as in the path. -/
theorem count_flatten_pieces {c : Char} (hslash : c ≠ '/') (path : String) :
    ((pieces path).map String.toList).flatten.count c = path.toList.count c := by
  rw [flatten_pieces, Text.count_flatten_splitAtMark hslash]

/-- Pieces of a path have no more of a character than the path, unless it is the slash. -/
theorem count_le_of_sublist_pieces {c : Char} (hslash : c ≠ '/') {kept : List String}
    (h : kept.Sublist (pieces path)) :
    (kept.map String.toList).flatten.count c ≤ path.toList.count c := by
  rw [← count_flatten_pieces hslash path]
  exact (h.map String.toList).flatten.count_le c

/-- Any character but the slash is that of a piece. -/
theorem exists_piece_of_mem {c : Char} (hslash : c ≠ '/') (h : c ∈ path.toList) :
    ∃ piece ∈ pieces path, c ∈ piece.toList := by
  have hflat : c ∈ ((pieces path).map String.toList).flatten := by
    rw [flatten_pieces, Text.flatten_splitAtMark, List.mem_filter]
    exact ⟨h, decide_eq_true hslash⟩
  obtain ⟨_, hpiece, hc⟩ := List.mem_flatten.1 hflat
  obtain ⟨piece, hmem, hsame⟩ := List.mem_map.1 hpiece
  exact ⟨piece, hmem, hsame ▸ hc⟩

/-- A path that starts at the root has nothing before its first slash. -/
theorem empty_mem_pieces (h : isAbsolute path = true) : "" ∈ pieces path := by
  obtain ⟨rest, hrest⟩ := List.head?_eq_some_iff.1 (of_decide_eq_true h)
  rw [pieces, hrest, Text.splitAtMark_cons_self]
  exact List.mem_cons_self

/-- The names that a way is made of are the pieces of its path. -/
theorem pieces_joined {way : List String} (hway : way ≠ [])
    (h : ∀ name ∈ way, IsFileName name) : pieces (Text.joined "/" way) = way :=
  Text.splitAtMark_joined rfl hway fun name hname => (h name hname).no_slash

/-- A way of file names makes a relative path. -/
theorem isAbsolute_joined {way : List String} (hway : way ≠ [])
    (h : ∀ name ∈ way, IsFileName name) : isAbsolute (Text.joined "/" way) = false := by
  refine Bool.eq_false_iff.2 fun habsolute => ?_
  have hempty := empty_mem_pieces habsolute
  rw [pieces_joined hway h] at hempty
  have hstep := (h "" hempty).isStep
  revert hstep
  decide

theorem zero_notMem_joined {way : List String} (hway : way ≠ [])
    (h : ∀ name ∈ way, IsFileName name) :
    Char.ofNat 0 ∉ (Text.joined "/" way).toList := by
  intro hzero
  obtain ⟨piece, hpiece, hmem⟩ := exists_piece_of_mem (by decide) hzero
  rw [pieces_joined hway h] at hpiece
  exact (h piece hpiece).no_zero hmem

/-- A relative path stands behind the base, with a slash between them unless the base
ends in one. -/
theorem join_eq_append (hbase : base ≠ "") (h : isAbsolute relative = false) :
    (∃ front, base.toList = front ++ ['/'] ∧ join base relative = base ++ relative)
      ∨ join base relative = base ++ "/" ++ relative := by
  unfold join
  rw [h, if_neg Bool.false_ne_true]
  by_cases hslash : base.toList.getLast? = some '/'
  · obtain ⟨front, hfront⟩ := List.getLast?_eq_some_iff.1 hslash
    exact .inl ⟨front, hfront, by simp [hslash]⟩
  · exact .inr (by simp [hslash, hbase])

/-- A relative path behind a base is not empty. -/
theorem join_ne_empty (hbase : base ≠ "") (h : isAbsolute relative = false) :
    join base relative ≠ "" := by
  obtain ⟨_, _, hjoin⟩ | hjoin := join_eq_append hbase h
  · simp [hjoin, hbase]
  · simp [hjoin]

/-- The pieces of a joined path; a slash that ends the base does not make a piece. -/
theorem exists_pieces_join (hbase : base ≠ "") (h : isAbsolute relative = false) :
    ∃ front, pieces (join base relative) = front ++ pieces relative
      ∧ (pieces base = front ∨ pieces base = front ++ [""]) := by
  unfold pieces
  obtain ⟨front, hfront, hjoin⟩ | hjoin := join_eq_append hbase h
  · refine ⟨(Text.splitAtMark '/' front).map String.ofList, ?_, .inr ?_⟩
    · rw [hjoin, String.toList_append, hfront, List.append_assoc, List.singleton_append,
        Text.splitAtMark_append, List.map_append]
    · rw [hfront, Text.splitAtMark_append, List.map_append]
      rfl
  · refine ⟨(Text.splitAtMark '/' base.toList).map String.ofList, ?_, .inl rfl⟩
    have hslash : "/".toList = ['/'] := rfl
    rw [hjoin, String.toList_append, String.toList_append, hslash, List.append_assoc,
      List.singleton_append, Text.splitAtMark_append, List.map_append]

/-- A joined path starts as its base does. -/
theorem isAbsolute_join (hbase : base ≠ "") (h : isAbsolute relative = false) :
    isAbsolute (join base relative) = isAbsolute base := by
  have hsome : base.toList ≠ [] := fun hnil => hbase (String.toList_eq_nil_iff.1 hnil)
  obtain ⟨first, later, hcons⟩ := List.exists_cons_of_ne_nil hsome
  unfold isAbsolute
  obtain ⟨_, _, hjoin⟩ | hjoin := join_eq_append hbase h
  · rw [hjoin, String.toList_append, hcons]
    rfl
  · rw [hjoin, String.toList_append, String.toList_append, hcons]
    rfl

/-- The characters of a joined path come from its parts or are the slash between them. -/
theorem mem_toList_join {c : Char} (hbase : base ≠ "") (h : isAbsolute relative = false)
    (hc : c ∈ (join base relative).toList) : c ∈ base.toList ∨ c = '/' ∨ c ∈ relative.toList := by
  obtain ⟨_, _, hjoin⟩ | hjoin := join_eq_append hbase h
  · rw [hjoin, String.toList_append, List.mem_append] at hc
    exact hc.imp_right .inr
  · simpa [hjoin, or_assoc] using hc

end Path

namespace FileTree

variable {tree : FileTree} {start target place way : List String}

/-- The place that a piece of a path leads to from a place, whatever is there. -/
def placeBehind (place : List String) (piece : String) : List String :=
  if !Path.isStep piece then place
  else if piece = ".." then place.dropLast
  else place ++ [piece]

/-- A piece either is passed, whatever follows it, or no path through it leads to a
directory. -/
theorem follow_cons (tree : FileTree) (place : List String) (piece : String) :
    (∀ rest, tree.follow place (piece :: rest) = tree.follow (placeBehind place piece) rest)
      ∨ ∀ rest target, tree.follow place (piece :: rest) ≠ .directory target := by
  unfold placeBehind
  by_cases hstep : Path.isStep piece = true
  · by_cases hparent : piece = ".."
    · left
      intro rest
      rw [hparent] at hstep ⊢
      simp [follow, hstep]
    · by_cases hlong : maxNameLength < piece.utf8ByteSize
      · right
        intro rest target
        simp [follow, hstep, hparent, hlong]
      · cases hnode : tree.node? (place ++ [piece]) with
        | none =>
          right
          intro rest target
          simp [follow, hstep, hparent, hlong, hnode]
        | some node =>
          cases node with
          | directory =>
            left
            intro rest
            simp [follow, hstep, hparent, hlong, hnode]
          | file content =>
            right
            intro rest target
            by_cases hrest : rest = [] <;> simp [follow, hstep, hparent, hlong, hnode, hrest]
  · left
    intro rest
    simp [follow, hstep]

/-- The directory that a path leads to is at the place that it names. -/
theorem foldl_placeBehind_of_follow {pieces : List String}
    (h : tree.follow start pieces = .directory target) :
    pieces.foldl placeBehind start = target := by
  induction pieces generalizing start with
  | nil => exact Located.directory.inj h
  | cons piece rest ih =>
    obtain hpass | hend := tree.follow_cons start piece
    · rw [hpass] at h
      exact ih h
    · exact absurd h (hend rest target)

/-- A path whose front leads to a directory is followed from there. -/
theorem follow_append {front : List String} (h : tree.follow start front = .directory place)
    (back : List String) : tree.follow start (front ++ back) = tree.follow place back := by
  induction front generalizing start with
  | nil => rw [Located.directory.inj h, List.nil_append]
  | cons piece front ih =>
    obtain hpass | hend := tree.follow_cons start piece
    · rw [hpass] at h
      rw [List.cons_append, hpass]
      exact ih h
    · exact absurd h (hend front place)

/-- Every front of a path to a directory leads to a directory. -/
theorem exists_follow_front {front back : List String}
    (h : tree.follow start (front ++ back) = .directory target) :
    ∃ place, tree.follow start front = .directory place := by
  induction front generalizing start with
  | nil => exact ⟨start, rfl⟩
  | cons piece front ih =>
    rw [List.cons_append] at h
    obtain hpass | hend := tree.follow_cons start piece
    · rw [hpass] at h ⊢
      exact ih h
    · exact absurd h (hend (front ++ back) target)

/-- An empty piece at the end of a path to a directory changes nothing. -/
theorem follow_of_append_empty {pieces : List String}
    (h : tree.follow start (pieces ++ [""]) = .directory target) :
    tree.follow start pieces = .directory target := by
  obtain ⟨place, hplace⟩ := exists_follow_front h
  have hstay : tree.follow place [""] = .directory place := rfl
  rw [follow_append hplace, hstay] at h
  rw [hplace, h]

/-- What a path is like that can be followed to its end. -/
theorem followed_of_locate {path : String} {located : Located} (h : tree.locate path = located)
    (hmissing : located ≠ .missing) (hunreachable : located ≠ .unreachable) :
    Char.ofNat 0 ∉ path.toList ∧ path ≠ "" ∧ isFollowable path = true
      ∧ tree.follow (tree.startOf path) (Path.pieces path) = located := by
  rw [← h] at hmissing hunreachable ⊢
  unfold locate at hmissing hunreachable ⊢
  by_cases hzero : Char.ofNat 0 ∈ path.toList
  · simp [hzero] at hunreachable
  · by_cases hempty : path = ""
    · simp [hempty] at hmissing
    · by_cases hfits : isFollowable path = true
      · simp [hzero, hempty, hfits]
      · simp [hzero, hempty, hfits] at hunreachable

/-- A relative path behind a base starts where the base does. -/
theorem startOf_join {base relative : String} (hbase : base ≠ "")
    (h : Path.isAbsolute relative = false) :
    tree.startOf (Path.join base relative) = tree.startOf base := by
  unfold startOf
  rw [Path.isAbsolute_join hbase h]

/-- A path joined to one that leads to a directory is followed from the directory. -/
theorem locate_join {base relative : String} (hbase : tree.locate base = .directory place)
    (hrelative : Path.isAbsolute relative = false) (hzero : Char.ofNat 0 ∉ relative.toList)
    (hfits : isFollowable (Path.join base relative) = true) :
    tree.locate (Path.join base relative) = tree.follow place (Path.pieces relative) := by
  obtain ⟨hbaseZero, hne, _, hfollow⟩ := followed_of_locate hbase nofun nofun
  have hjoinZero : Char.ofNat 0 ∉ (Path.join base relative).toList := by
    intro hmem
    obtain hin | hslash | hin := Path.mem_toList_join hne hrelative hmem
    · exact hbaseZero hin
    · exact absurd hslash (by decide)
    · exact hzero hin
  have hjoinNe : Path.join base relative ≠ "" := Path.join_ne_empty hne hrelative
  obtain ⟨front, hpieces, hfront⟩ := Path.exists_pieces_join hne hrelative
  have hdirectory : tree.follow (tree.startOf base) front = .directory place := by
    obtain hsame | hempty := hfront
    · rw [← hsame]
      exact hfollow
    · rw [hempty] at hfollow
      exact follow_of_append_empty hfollow
  unfold locate
  rw [startOf_join hne hrelative, hpieces, follow_append hdirectory]
  simp [hjoinZero, hjoinNe, hfits]

/-- The place of a path is come to piece by piece. -/
theorem placeOf_eq_foldl (tree : FileTree) (path : String) :
    tree.placeOf path = (Path.pieces path).foldl placeBehind (tree.startOf path) := by
  unfold placeOf
  rw [List.foldl_filter]
  congr 1
  funext place piece
  unfold placeBehind
  by_cases hstep : Path.isStep piece = true <;> simp [hstep]

/-- A path joined to one that leads to a directory names a place that is found from the
directory. -/
theorem placeOf_join {base relative : String} (hbase : tree.locate base = .directory place)
    (hrelative : Path.isAbsolute relative = false) :
    tree.placeOf (Path.join base relative) = (Path.pieces relative).foldl placeBehind place := by
  obtain ⟨_, hne, _, hfollow⟩ := followed_of_locate hbase nofun nofun
  have hplace := foldl_placeBehind_of_follow hfollow
  obtain ⟨front, hpieces, hfront⟩ := Path.exists_pieces_join hne hrelative
  have hdirectory : front.foldl placeBehind (tree.startOf base) = place := by
    obtain hsame | hempty := hfront
    · rw [← hsame]
      exact hplace
    · rw [hempty, List.foldl_append] at hplace
      exact hplace
  rw [placeOf_eq_foldl, startOf_join hne hrelative, hpieces, List.foldl_append, hdirectory]

/-- Pieces that do not lead back add the names among them to the place. -/
theorem foldl_placeBehind_of_forall {pieces : List String} (h : ∀ piece ∈ pieces, piece ≠ "..") :
    pieces.foldl placeBehind place = place ++ pieces.filter Path.isStep := by
  induction pieces generalizing place with
  | nil => rw [List.foldl_nil, List.filter_nil, List.append_nil]
  | cons piece rest ih =>
    obtain ⟨hpiece, hrest⟩ := List.forall_mem_cons.1 h
    rw [List.foldl_cons, ih hrest]
    by_cases hstep : Path.isStep piece = true
    · simp [placeBehind, hstep, hpiece]
    · simp [placeBehind, hstep]

/-! ### Nodes of a well-formed tree -/

/-- In a well-formed tree, a place leads to the node that is listed for it. -/
theorem WellFormed.node?_eq_some_iff (htree : tree.WellFormed) (hplace : place ≠ [])
    (node : FileNode) : tree.node? place = some node ↔ (place, node) ∈ tree.nodes := by
  unfold node?
  rw [if_neg hplace, Option.map_eq_some_iff]
  constructor
  · intro ⟨found, hfind, hnode⟩
    obtain ⟨hmem, hkey⟩ := (find?_key_eq_some_iff htree.places place found).1 hfind
    rw [← hkey, ← hnode]
    exact hmem
  · intro hmem
    exact ⟨(place, node), (find?_key_eq_some_iff htree.places place _).2 ⟨hmem, rfl⟩, rfl⟩

/-- Every place on the way to something is a directory. The induction takes the last name off. -/
theorem WellFormed.node?_front (htree : tree.WellFormed) (hway : way ≠ []) {node : FileNode}
    (h : tree.node? (place ++ way) = some node) : tree.node? place = some .directory := by
  induction way using List.reverseRecOn generalizing node with
  | nil => exact absurd rfl hway
  | append_singleton way name ih =>
    have hmem : (place ++ (way ++ [name]), node) ∈ tree.nodes :=
      (htree.node?_eq_some_iff (by simp) node).1 h
    have hparent := htree.parents _ hmem
    rw [← List.append_assoc, List.dropLast_concat] at hparent
    by_cases hnil : way = []
    · rw [hnil, List.append_nil] at hparent
      exact hparent
    · exact ih hnil hparent

/-- Following the names on the way to a file arrives at the file. -/
theorem WellFormed.follow_way (htree : tree.WellFormed) (hway : way ≠ []) {content : FileContent}
    (h : tree.node? (place ++ way) = some (.file content)) :
    tree.follow place way = .file content := by
  induction way generalizing place with
  | nil => exact absurd rfl hway
  | cons name rest ih =>
    have hmem : (place ++ name :: rest, FileNode.file content) ∈ tree.nodes :=
      (htree.node?_eq_some_iff (by simp) _).1 h
    have hname : IsFileName name := htree.names _ hmem name (by simp)
    have hshort : ¬ maxNameLength < name.utf8ByteSize := Nat.not_lt.2 hname.length_le
    rw [List.append_cons] at h
    by_cases hrest : rest = []
    · rw [hrest, List.append_nil] at h
      simp [follow, hname.isStep, hname.ne_parent, hshort, h, hrest]
    · have hdirectory := htree.node?_front hrest h
      have hfollow := ih hrest h
      simp [follow, hname.isStep, hname.ne_parent, hshort, hdirectory, hfollow]

theorem mem_insertOrdered {α : Type} {item other : List String × α}
    (items : List (List String × α)) :
    other ∈ insertOrdered item items ↔ other = item ∨ other ∈ items := by
  induction items with
  | nil => exact List.mem_cons
  | cons first items ih =>
    unfold insertOrdered
    split
    · rw [List.mem_cons, ih, List.mem_cons, or_left_comm]
    · rw [List.mem_cons]

/-- The places strictly below a directory are those with a way from there. -/
theorem isWithin_and_length_lt_iff (place other : List String) :
    (isWithin place other && decide (place.length < other.length)) = true
      ↔ ∃ way, way ≠ [] ∧ other = place ++ way := by
  unfold isWithin
  rw [Bool.and_eq_true, List.isPrefixOf_iff_prefix, decide_eq_true_iff]
  constructor
  · intro ⟨⟨way, hway⟩, hlength⟩
    rw [← hway, List.length_append] at hlength
    have hpos : 0 < way.length := by omega
    exact ⟨way, List.length_pos_iff.1 hpos, hway.symm⟩
  · intro ⟨way, hne, hother⟩
    have hpos := List.length_pos_iff.2 hne
    rw [hother, List.length_append]
    exact ⟨List.prefix_append place way, by omega⟩

/-- What is found below a directory is what the tree has there. -/
theorem mem_below_iff (tree : FileTree) (place way : List String) (node : FileNode) :
    (way, node) ∈ tree.below place ↔ way ≠ [] ∧ (place ++ way, node) ∈ tree.nodes := by
  unfold below
  induction tree.nodes with
  | nil => simp
  | cons first nodes ih =>
    obtain ⟨other, found⟩ := first
    have hbelow := isWithin_and_length_lt_iff place other
    rw [List.foldr_cons, List.mem_cons, Prod.mk.injEq]
    dsimp only
    split
    case isTrue h =>
      obtain ⟨rest, hrest, hother⟩ := hbelow.1 h
      rw [mem_insertOrdered, ih, hother, List.drop_left, Prod.mk.injEq, List.append_right_inj]
      constructor
      · rintro (⟨hway, hnode⟩ | ⟨hway, hmem⟩)
        · exact ⟨hway ▸ hrest, .inl ⟨hway, hnode⟩⟩
        · exact ⟨hway, .inr hmem⟩
      · rintro ⟨hway, hsame | hmem⟩
        · exact .inl hsame
        · exact .inr ⟨hway, hmem⟩
    case isFalse h =>
      rw [ih]
      constructor
      · exact fun ⟨hway, hmem⟩ => ⟨hway, .inr hmem⟩
      · rintro ⟨hway, ⟨hsame, _⟩ | hmem⟩
        · exact absurd (hbelow.2 ⟨way, hway, hsame.symm⟩) h
        · exact ⟨hway, hmem⟩

end FileTree

end ClassAtlas
