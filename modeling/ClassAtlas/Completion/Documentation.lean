import ClassAtlas.ClassFile.Description
import ClassAtlas.Text.Blank

/-!
# Documentation

A documentation provider answers questions about members with a summary and the
declared parameter names. Parameter names can also be recovered from the
parameter tags of a summary.
-/

namespace ClassAtlas

/-- What a provider is asked. -/
structure DocumentationRequest where
  /-- The class that declares the member. -/
  description : ClassDescription
  /-- The name of the member. -/
  member : String
  /-- The key of the member. -/
  key : String
  /-- The source text of the class, if there is one. -/
  sourceText : Option String

/-- What a provider answers. -/
structure MemberDocumentation where
  /-- A description of the member. -/
  summary : Option String
  /-- The declared parameter names in order. -/
  parameterNames : List String
  deriving DecidableEq, Repr

/-- The documentation of a member that nobody documents. -/
def MemberDocumentation.none : MemberDocumentation := ⟨Option.none, []⟩

/-- Answers questions about members. -/
abbrev DocumentationProvider := DocumentationRequest → Option MemberDocumentation

/-- The parts of a text between its parameter tags, behind the characters already read of
the current part, newest first. -/
def partsAtTags (current : List Char) : List Char → List (List Char)
  | '@' :: 'p' :: 'a' :: 'r' :: 'a' :: 'm' :: rest => current.reverse :: partsAtTags [] rest
  | c :: rest => partsAtTags (c :: current) rest
  | [] => [current.reverse]

/-- The parameter names of the tags in a summary, in order. -/
def taggedNames (summary : String) : List String :=
  ((partsAtTags [] summary.toList).drop 1).filterMap fun part =>
    (Text.firstWord? part).map String.ofList

end ClassAtlas
