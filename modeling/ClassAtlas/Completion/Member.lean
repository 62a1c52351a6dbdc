import ClassAtlas.ClassFile.Description
import ClassAtlas.Types.Overload

/-!
# Members

A member is one entry of a completion list: a field, a method or a bean property
of a class, or one of the global keywords. Its key is unique among the members of
one type.
-/

namespace ClassAtlas

/-- The kinds of members. -/
inductive MemberKind where
  /-- A method of a class. -/
  | method
  /-- A field of a class. -/
  | field
  /-- An accessor method shown as a property. -/
  | property
  /-- A global function. -/
  | function
  /-- A global constant. -/
  | constant
  /-- A global tag. -/
  | tag
  deriving DecidableEq, Repr

/-- A parameter with its type in platform spelling. -/
structure MemberParameter where
  /-- The type. -/
  typeName : String
  /-- The name. -/
  name : String
  deriving DecidableEq, Repr

/-- An entry of a completion list. -/
structure Member where
  /-- What kind of member it is. -/
  kind : MemberKind
  /-- Its name. -/
  name : String
  /-- The qualified name of the declaring class; keywords have none. -/
  owner : Option String
  /-- Name and parameter types of something callable, the name of anything else. -/
  key : String
  /-- The type of its value or result, if there is one. -/
  resultType : Option String
  /-- Its parameters in order. -/
  parameters : List MemberParameter
  /-- Whether it belongs to the class itself. -/
  isStatic : Bool
  /-- Whether it is deprecated. -/
  isDeprecated : Bool
  /-- Its documentation, or a text made from its declaration. -/
  summary : String
  deriving DecidableEq, Repr

namespace Member

/-- Whether a call can lead to the member. -/
def isCallable (member : Member) : Bool :=
  member.kind = .method || member.kind = .function

/-- The parameters as written between parentheses. -/
def writtenParameters (parameters : List MemberParameter) : String :=
  Method.writtenParameters (parameters.map fun p => (p.typeName, p.name))

/-- The member as a declaration: `int max(int a, int b)`, `java.lang.String name`. -/
def signature (member : Member) : String :=
  let resultType := member.resultType.getD "void"
  let call := member.name ++ "(" ++ writtenParameters member.parameters ++ ")"
  match member.kind with
  | .method => resultType ++ " " ++ call
  | .function => if member.resultType = none then call else resultType ++ " " ++ call
  | .field | .property => resultType ++ " " ++ member.name
  | .constant | .tag => member.name

/-- The member as a candidate of a call. -/
def candidate (member : Member) : Candidate :=
  ⟨member.name, member.parameters.map (·.typeName)⟩

/-- Keeps the first member of each key. -/
def firstByKey (members : List Member) : List Member :=
  (members.foldl
    (fun kept member => if kept.any (·.key = member.key) then kept else member :: kept)
    []).reverse

end Member

/-- A declared method as a candidate of a call. -/
def Method.candidate (method : Method) : Candidate :=
  ⟨method.name, method.type.parameters.map FieldType.qualifiedName⟩

end ClassAtlas
