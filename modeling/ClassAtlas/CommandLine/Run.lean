import ClassAtlas.CommandLine.Arguments
import ClassAtlas.Engine.Calls

/-!
# Running commands

A command prints lines and succeeds, or fails without printing anything. The
exit code tells success, failure and a command line without meaning apart.
-/

namespace ClassAtlas.CommandLine

/-- What running a command line leaves behind. -/
structure Outcome where
  /-- Zero for success, one for failure, two for a command line without meaning. -/
  exitCode : Nat
  /-- The printed lines. -/
  output : List String
  deriving DecidableEq, Repr

/-- The lines that show a class. -/
def describeClass (description : ClassDescription) : List String :=
  [description.name ++ " (version " ++ toString description.majorVersion.toNat ++ "."
      ++ toString description.minorVersion.toNat ++ ")"]
    ++ description.superclass.toList.map ("  extends " ++ ·)
    ++ description.interfaces.map ("  implements " ++ ·)
    ++ description.fields.map (fun field => "  " ++ field.type.qualifiedName ++ " " ++ field.name)
    ++ description.methods.map (fun method => "  " ++ method.signature)

/-- Spaces in front of a line on a given level. -/
def indentation (depth : Nat) : String :=
  String.ofList (List.replicate (depth * 2) ' ')

/-- The lines that show a package tree; packages end in a slash. -/
def describeTree {α : Type} (depth : Nat) : PackageTree α → List String
  | .nil => []
  | .leaf segment _ rest => (indentation depth ++ segment) :: describeTree depth rest
  | .package segment children rest =>
    (indentation depth ++ segment ++ "/")
      :: (describeTree (depth + 1) children ++ describeTree depth rest)

/-- The width of the first column of a member list. -/
def memberColumn : Nat := 48

/-- The line that shows a member with its owner. -/
def describeMember (member : Member) : String :=
  let signature := member.signature
  signature ++ String.ofList (List.replicate (memberColumn - signature.length) ' ') ++ " "
    ++ member.owner.getD ""

/-- An index of the libraries at some paths, registered in order. -/
def indexOf (tree : FileTree) : LibraryIndex → List String → Except RegistrationError LibraryIndex
  | index, [] => .ok index
  | index, path :: rest =>
    match index.register tree (.ofPath path) none with
    | .ok (_, index) => indexOf tree index rest
    | .error error => .error error

/-- The lines a command prints; none when it fails. -/
def perform (tree : FileTree) : Command → Option (List String)
  | .dump path =>
    match tree.read path with
    | .content content => (decode content.bytes).toOption.map describeClass
    | _ => none
  | .showTree path =>
    (LibraryIndex.empty.register tree (.ofPath path) none).toOption.map fun (library, _) =>
      describeTree 0 library.tree
  | .members libraries typeName statics beanProperties => do
    let index ← (indexOf tree .empty libraries).toOption
    let engine := Engine.ofIndex index { EngineConfig.standard with beanProperties } none
    let declaration := (engine.declaration typeName).withStaticsOnly statics
    let engine := engine.resolve tree declaration
    if (engine.record tree declaration).isFound then
      some ((engine.completions tree declaration).map describeMember)
    else none
  | .call libraries typeName call statics => do
    let index ← (indexOf tree .empty libraries).toOption
    let engine := Engine.ofIndex index .standard none
    let declaration := (engine.declaration typeName).withStaticsOnly statics
    let call ← (CallSite.parse call).toOption
    match (engine.resolveCallSite tree declaration call).1 with
    | .resolved member score =>
      some [member.signature ++ " (score " ++ toString score ++ ")"]
    | .noMatch => some ["no matching overload"]
    | .typeNotFound => none

/-- Runs a command line against a file tree. -/
def run (tree : FileTree) (arguments : List String) : Outcome :=
  match parse arguments with
  | none => ⟨2, []⟩
  | some command =>
    match perform tree command with
    | none => ⟨1, []⟩
    | some lines => ⟨0, lines⟩

end ClassAtlas.CommandLine
