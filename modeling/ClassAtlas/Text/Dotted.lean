/-!
# Dotted names

A qualified name is a run of segments divided by points: the last segment is the
simple name, what stands before the last point is the package. Internal names of
the class file format divide the same segments by slashes. Both views are
computed on characters, so that every fact about them is a fact about lists.
-/

namespace ClassAtlas.Text

/-- The parts of a text between consecutive occurrences of a mark; a text without
the mark is its own only part. -/
def splitAtMark (mark : Char) (text : List Char) : List (List Char) :=
  text.foldr
    (fun c parts =>
      if c = mark then [] :: parts
      else
        match parts with
        | [] => [[c]]
        | part :: others => (c :: part) :: others)
    [[]]

/-- The segments of a dotted name, in order. -/
def segments (name : String) : List String :=
  (splitAtMark '.' name.toList).map String.ofList

/-- What follows the last occurrence of a mark, or the whole text without one. -/
def afterLast (mark : Char) (text : List Char) : List Char :=
  (text.reverse.takeWhile (· ≠ mark)).reverse

/-- What precedes the last occurrence of a mark, or nothing without one. -/
def beforeLast (mark : Char) (text : List Char) : List Char :=
  ((text.reverse.dropWhile (· ≠ mark)).drop 1).reverse

/-- The last segment of a qualified name: `java.util.Map$Entry` gives `Map$Entry`. -/
def simpleName (qualified : String) : String :=
  String.ofList (afterLast '.' qualified.toList)

/-- The package of a qualified name, empty for a name without a point. -/
def packageName (qualified : String) : String :=
  String.ofList (beforeLast '.' qualified.toList)

/-- A name that names its package. -/
def isQualified (name : String) : Bool :=
  name.toList.contains '.'

theorem afterLast_append_mark {mark : Char} {front back : List Char} (h : mark ∉ back) :
    afterLast mark (front ++ mark :: back) = back := by
  have hall : ∀ c ∈ back.reverse, (decide (c ≠ mark)) = true := by
    intro c hc
    have hne : c ≠ mark := fun he => h (he ▸ List.mem_reverse.1 hc)
    simpa using hne
  unfold afterLast
  rw [List.reverse_append, List.reverse_cons, List.append_assoc,
    List.takeWhile_append_of_pos hall]
  simp

/-- The simple name of a package member is its own name. -/
theorem simpleName_member {package name : String} (h : isQualified name = false) :
    simpleName (package ++ "." ++ name) = name := by
  have hmark : '.' ∉ name.toList := by simpa [isQualified] using h
  have hsplit : (package ++ "." ++ name).toList = package.toList ++ '.' :: name.toList := by
    simp
  rw [simpleName, hsplit, afterLast_append_mark hmark, String.ofList_toList]

/-- A text with every occurrence of one mark replaced by another. -/
def replaceMark (mark replacement : Char) (text : String) : String :=
  String.ofList (text.toList.map fun c => if c = mark then replacement else c)

/-- The dotted spelling of an internal name: `java/util/Map` gives `java.util.Map`. -/
def internalToQualified (internal : String) : String :=
  replaceMark '/' '.' internal

/-- A text without a given ending, when it has that ending. -/
def dropEnding? (ending text : String) : Option String :=
  if ending.toList.isSuffixOf text.toList then
    some (String.ofList (text.toList.take (text.toList.length - ending.toList.length)))
  else none

/-- Whether a text ends in a given ending. -/
def hasEnding (ending text : String) : Bool :=
  ending.toList.isSuffixOf text.toList

/-- A text without a given beginning, when it has that beginning. -/
def dropBeginning? (beginning text : String) : Option String :=
  if beginning.toList.isPrefixOf text.toList then
    some (String.ofList (text.toList.drop beginning.toList.length))
  else none

/-- Texts joined by a separator. -/
def joined (separator : String) (parts : List String) : String :=
  separator.intercalate parts

end ClassAtlas.Text
