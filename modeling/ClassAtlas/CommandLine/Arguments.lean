import ClassAtlas.Text.Dotted

/-!
# Command line arguments

A command line names a command, followed by options and operands in any order.
Libraries are given by `-l` or `--lib`, any number of times; each switch may be
given once. Everything behind `--` is an operand. A command line that does not
follow these rules has no meaning.
-/

namespace ClassAtlas.CommandLine

open Text

/-- What a command line asks for. -/
inductive Command where
  /-- Show the declaration of a class file. -/
  | dump (path : String)
  /-- Show the package tree of a library. -/
  | showTree (library : String)
  /-- List the completions of a type. -/
  | members (libraries : List String) (typeName : String) (statics beanProperties : Bool)
  /-- Resolve a call against a type. -/
  | call (libraries : List String) (typeName call : String) (statics : Bool)
  deriving DecidableEq, Repr

/-- The options a command knows. -/
structure KnownOptions where
  /-- Whether it takes libraries. -/
  libraries : Bool
  /-- Whether it can be limited to static members. -/
  statics : Bool
  /-- Whether it can show accessors as properties. -/
  beanProperties : Bool
  deriving DecidableEq, Repr

/-- What has been given so far. -/
structure Given where
  /-- The libraries in order. -/
  libraries : List String
  /-- Whether static members are asked for. -/
  statics : Bool
  /-- Whether properties are asked for. -/
  beanProperties : Bool
  /-- The operands in order. -/
  operands : List String
  deriving DecidableEq, Repr

/-- Nothing given. -/
def Given.nothing : Given := ⟨[], false, false, []⟩

/-- A path, which must not be empty, as a further library. -/
def Given.addLibrary (given : Given) (path : String) : Option Given :=
  if path = "" then none else some { given with libraries := given.libraries ++ [path] }

/-- Whether an argument cannot be the value of an option. -/
def looksLikeOption (argument : String) : Bool :=
  match argument.toList with
  | '-' :: _ :: _ => true
  | _ => false

/-- Whether the library option stands alone, and its value follows. -/
def isLibraryOption (argument : String) : Bool :=
  argument = "-l" || argument = "--lib"

/-- The value that a library option carries itself. -/
def libraryValue? (argument : String) : Option String :=
  match dropBeginning? "--lib=" argument with
  | some value => some value
  | none =>
    match dropBeginning? "-l=" argument with
    | some value => some value
    | none => dropBeginning? "-l" argument

/-- Reads the arguments of a command. -/
def readArguments (known : KnownOptions) : Given → List String → Option Given
  | given, [] => some given
  | given, argument :: rest =>
    if argument = "--" then some { given with operands := given.operands ++ rest }
    else if !looksLikeOption argument then
      readArguments known { given with operands := given.operands ++ [argument] } rest
    else if known.libraries && isLibraryOption argument then
      match rest with
      | [] => none
      | value :: others =>
        if looksLikeOption value then none
        else
          match given.addLibrary value with
          | some given => readArguments known given others
          | none => none
    else if known.statics && argument = "--statics" then
      if given.statics then none else readArguments known { given with statics := true } rest
    else if known.beanProperties && argument = "--bean-properties" then
      if given.beanProperties then none
      else readArguments known { given with beanProperties := true } rest
    else if known.libraries then
      match libraryValue? argument with
      | some value =>
        match given.addLibrary value with
        | some given => readArguments known given rest
        | none => none
      | none => none
    else none

/-- The command of a command line. -/
def parse : (arguments : List String) → Option Command
  | "dump" :: rest => do
    let given ← readArguments ⟨false, false, false⟩ .nothing rest
    match given.operands with
    | [path] => if path = "" then none else some (.dump path)
    | _ => none
  | "tree" :: rest => do
    let given ← readArguments ⟨false, false, false⟩ .nothing rest
    match given.operands with
    | [library] => if library = "" then none else some (.showTree library)
    | _ => none
  | "members" :: rest => do
    let given ← readArguments ⟨true, true, true⟩ .nothing rest
    match given.libraries, given.operands with
    | [], _ => none
    | libraries, [typeName] =>
      some (.members libraries typeName given.statics given.beanProperties)
    | _, _ => none
  | "call" :: rest => do
    let given ← readArguments ⟨true, true, false⟩ .nothing rest
    match given.libraries, given.operands with
    | [], _ => none
    | libraries, [typeName, call] => some (.call libraries typeName call given.statics)
    | _, _ => none
  | _ => none

end ClassAtlas.CommandLine
