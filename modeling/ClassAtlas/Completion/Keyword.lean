import ClassAtlas.Completion.Member
import ClassAtlas.Signature

/-!
# Keywords

Global functions, constants and tags come from declarative records. The
signature of a function is read for its parameters; a signature that cannot be
read leaves the function without any.
-/

namespace ClassAtlas

/-- The kinds of keywords. -/
inductive KeywordKind where
  /-- A function. -/
  | function
  /-- A constant. -/
  | constant
  /-- A tag. -/
  | tag
  deriving DecidableEq, Repr

/-- The kind of member a keyword becomes. -/
def KeywordKind.memberKind : KeywordKind → MemberKind
  | function => .function
  | constant => .constant
  | tag => .tag

/-- A declared keyword. -/
structure Keyword where
  /-- Its name. -/
  name : String
  /-- Its kind. -/
  kind : KeywordKind
  /-- The signature of a function. -/
  signature : Option String
  /-- A description. -/
  description : Option String
  deriving DecidableEq, Repr

namespace Keyword

/-- The parameters of a function, taken from its signature. -/
def parameters (keyword : Keyword) : List MemberParameter :=
  match keyword.kind, keyword.signature with
  | .function, some text =>
    match Signature.parse text with
    | .ok signature =>
      signature.parameters.zipIdx.map fun (parameter, position) =>
        ⟨parameter.typeName, parameter.name.getD (positionalName position)⟩
    | .error _ => []
  | _, _ => []

/-- The completion entry of a keyword, described by its signature without a description. -/
def toMember (keyword : Keyword) : Member :=
  let parameters := keyword.parameters
  let key :=
    match keyword.kind with
    | .function =>
      keyword.name ++ "(" ++ Text.joined ", " (parameters.map (·.typeName)) ++ ")"
    | _ => keyword.name
  let plain : Member :=
    { kind := keyword.kind.memberKind, name := keyword.name, owner := none, key
      resultType := none, parameters, isStatic := true, isDeprecated := false, summary := "" }
  { plain with summary := keyword.description.getD plain.signature }

end Keyword

end ClassAtlas
