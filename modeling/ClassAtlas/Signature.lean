import ClassAtlas.Text.Alphanumeric
import ClassAtlas.Text.Blank
import ClassAtlas.Text.Quoted

/-!
# Written signatures

A signature is written `name(Type a, Type b)`. Parameter names may be left out,
generic arguments are skipped, and a trailing `...` stands for one more array
dimension. Layout characters may stand between any two parts; a parameter name
needs at least one of them before it. Each optional part is either read
completely or not at all.
-/

namespace ClassAtlas

open Text

/-- A parameter as written. -/
structure WrittenParameter where
  /-- The type, with one `[]` for each array dimension. -/
  typeName : String
  /-- The name, if one is given. -/
  name : Option String
  deriving DecidableEq, Repr

/-- A signature as written. -/
structure WrittenSignature where
  /-- The dotted name in front of the parameters. -/
  name : String
  /-- The parameters in order. -/
  parameters : List WrittenParameter
  deriving DecidableEq, Repr

/-- A call: the name of the callee and the type of each argument. -/
structure CallSite where
  /-- The name that is called. -/
  name : String
  /-- The argument types in order. -/
  arguments : List String
  deriving DecidableEq, Repr

/-- A text that is no signature. -/
structure SignatureError where
  /-- The text. -/
  text : String
  deriving DecidableEq, Repr

/-- The text of the error. -/
def SignatureError.message (error : SignatureError) : String :=
  "malformed signature " ++ quoted error.text

namespace Signature

/-- Characters of identifiers. -/
def isIdentifierChar (c : Char) : Bool :=
  isAlphanumeric c || c = '_' || c = '$'

/-- A text behind its leading layout. -/
def skipLayout (text : List Char) : List Char :=
  text.dropWhile isLayout

/-- The identifier at the front of a text. -/
def readIdentifier (text : List Char) : Option (List Char × List Char) :=
  match text.takeWhile isIdentifierChar with
  | [] => none
  | identifier => some (identifier, text.dropWhile isIdentifierChar)

/-- The rest of a dotted name behind the characters already read, newest first. A point
belongs to the name only when an identifier follows it. -/
def dottedBehind (read : List Char) : List Char → List Char × List Char
  | [] => (read.reverse, [])
  | c :: rest =>
    if isIdentifierChar c then dottedBehind (c :: read) rest
    else if c = '.' then
      match rest with
      | [] => (read.reverse, [c])
      | d :: others =>
        if isIdentifierChar d then dottedBehind (d :: c :: read) others
        else (read.reverse, c :: d :: others)
    else (read.reverse, c :: rest)

/-- The dotted name at the front of a text. -/
def readDottedName : List Char → Option (List Char × List Char)
  | [] => none
  | c :: rest => if isIdentifierChar c then some (dottedBehind [c] rest) else none

/-- The text behind the end of a group of generic arguments; `inner` groups are open
inside the group. -/
def skipGroup : (inner : Nat) → List Char → Option (List Char)
  | _, [] => none
  | inner, c :: rest =>
    if c = '<' then skipGroup (inner + 1) rest
    else if c = '>' then
      match inner with
      | 0 => some rest
      | inner + 1 => skipGroup inner rest
    else skipGroup inner rest

/-- A text behind the generic arguments at its front, if there are any. -/
def skipGenericArguments (text : List Char) : List Char :=
  match skipLayout text with
  | '<' :: rest => (skipGroup 0 rest).getD text
  | _ => text

/-- The text behind a pair of brackets at the front. -/
def readBrackets (text : List Char) : Option (List Char) :=
  match skipLayout text with
  | '[' :: inner =>
    match skipLayout inner with
    | ']' :: rest => some rest
    | _ => none
  | _ => none

/-- Counts the pairs of brackets at the front of a text, `limit` at most. -/
def readDimensions : (limit counted : Nat) → List Char → Nat × List Char
  | 0, counted, text => (counted, text)
  | limit + 1, counted, text =>
    match readBrackets text with
    | some rest => readDimensions limit (counted + 1) rest
    | none => (counted, text)

/-- The text behind the mark of a variable number of arguments at the front. -/
def readEllipsis (text : List Char) : Option (List Char) :=
  match skipLayout text with
  | '.' :: '.' :: '.' :: rest => some rest
  | _ => none

/-- A type name with a number of array dimensions. -/
def arrayName (base : List Char) (dimensions : Nat) : String :=
  String.ofList (base ++ (List.replicate dimensions ['[', ']']).flatten)

/-- The type at the front of a text. -/
def readType (text : List Char) : Option (String × List Char) :=
  match readDottedName text with
  | none => none
  | some (base, rest) =>
    let rest := skipGenericArguments rest
    let (dimensions, rest) := readDimensions rest.length 0 rest
    match readEllipsis rest with
    | some rest => some (arrayName base (dimensions + 1), rest)
    | none => some (arrayName base dimensions, rest)

/-- The name of a parameter at the front of a text, behind some layout. -/
def readParameterName (text : List Char) : Option (List Char × List Char) :=
  match text with
  | c :: rest => if isLayout c then readIdentifier (skipLayout rest) else none
  | [] => none

/-- A parameter at the front of a text, with the layout around it. -/
def readParameter (text : List Char) : Option (WrittenParameter × List Char) :=
  match readType (skipLayout text) with
  | none => none
  | some (typeName, rest) =>
    match readParameterName rest with
    | some (name, rest) => some (⟨typeName, some (String.ofList name)⟩, skipLayout rest)
    | none => some (⟨typeName, none⟩, skipLayout rest)

/-- Further parameters, each behind a comma, behind those already read, newest first. At
most `limit` are read. -/
def parametersBehind (read : List WrittenParameter) :
    (limit : Nat) → List Char → List WrittenParameter × List Char
  | 0, text => (read.reverse, text)
  | limit + 1, text =>
    match text with
    | ',' :: rest =>
      match readParameter rest with
      | some (parameter, behind) => parametersBehind (parameter :: read) limit behind
      | none => (read.reverse, text)
    | _ => (read.reverse, text)

/-- The parameters at the front of a text, divided by commas. -/
def readParameters (text : List Char) : List WrittenParameter × List Char :=
  match readParameter text with
  | none => ([], text)
  | some (first, rest) => parametersBehind [first] rest.length rest

/-- The signature that makes up a whole text. -/
def read (text : List Char) : Option WrittenSignature :=
  match readDottedName (skipLayout text) with
  | none => none
  | some (name, rest) =>
    match skipLayout rest with
    | '(' :: inner =>
      match readParameters inner with
      | (parameters, rest) =>
        match skipLayout rest with
        | ')' :: rest =>
          match skipLayout rest with
          | [] => some ⟨String.ofList name, parameters⟩
          | _ => none
        | _ => none
    | _ => none

/-- The signature written by a text. -/
def parse (text : String) : Except SignatureError WrittenSignature :=
  match read text.toList with
  | some signature => .ok signature
  | none => .error ⟨text⟩

end Signature

/-- The call of a signature with arguments of its parameter types. -/
def WrittenSignature.toCallSite (signature : WrittenSignature) : CallSite :=
  ⟨signature.name, signature.parameters.map (·.typeName)⟩

/-- The call written by a text; names behind the types are dropped. -/
def CallSite.parse (text : String) : Except SignatureError CallSite :=
  (Signature.parse text).map WrittenSignature.toCallSite

end ClassAtlas
