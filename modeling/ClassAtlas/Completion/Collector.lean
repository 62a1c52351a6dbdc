import ClassAtlas.Completion.Documentation
import ClassAtlas.Completion.Member
import ClassAtlas.Text.LetterCase
import ClassAtlas.Types.Declaration

/-!
# Members of a class

The members of a class are its visible fields followed by its visible methods,
each in declaration order; constructors, initializers and methods made by the
compiler are left out. On demand, an accessor is followed by the property it
stands for.
-/

namespace ClassAtlas

open Text

/-- Everything that shapes the members of a class. -/
structure MemberContext where
  /-- The class. -/
  description : ClassDescription
  /-- Whether only static members are wanted. -/
  staticsOnly : Bool
  /-- Whether accessors are also shown as properties. -/
  beanProperties : Bool
  /-- Who documents members. -/
  provider : Option DocumentationProvider
  /-- The source text of the class. -/
  sourceText : Option String

/-- A name with its first letter lowered, unless its first two letters are capitals. -/
def decapitalize : List Char → List Char
  | [] => []
  | first :: rest =>
    match rest with
    | second :: _ =>
      if isCapital second && isCapital first then first :: rest else lowerCase first ++ rest
    | [] => lowerCase first

/-- The part of an accessor name that names the property, when it starts in a capital. -/
def propertyStem? (stem : String) : Option String :=
  match stem.toList with
  | first :: rest =>
    if isCapital first then some (String.ofList (decapitalize (first :: rest))) else none
  | [] => none

/-- The property that an accessor stands for: an instance method without parameters named
`getX`, or `isX` with a truth value as its result. -/
def propertyName? (method : Method) : Option String :=
  if method.arity ≠ 0 || method.isStatic then none
  else
    match method.type.result with
    | none => none
    | some result =>
      match dropBeginning? "get" method.name with
      | some stem => propertyStem? stem
      | none =>
        if result.qualifiedName = "boolean" then
          match dropBeginning? "is" method.name with
          | some stem => propertyStem? stem
          | none => none
        else none

namespace MemberContext

/-- Whether a member is shown. -/
def isVisible (context : MemberContext) (isPublic isStatic : Bool) : Bool :=
  isPublic && (isStatic || !context.staticsOnly)

/-- The documentation of a member. -/
def documentation (context : MemberContext) (member key : String) : MemberDocumentation :=
  match context.provider with
  | none => .none
  | some provider =>
    (provider ⟨context.description, member, key, context.sourceText⟩).getD .none

/-- The entry of a field. -/
def fieldMember (context : MemberContext) (field : Field) : Member :=
  let typeName := field.type.qualifiedName
  let words := ["public"] ++ (if field.isStatic then ["static"] else [])
    ++ (if field.isFinal then ["final"] else [])
  { kind := .field
    name := field.name
    owner := some context.description.name
    key := field.name
    resultType := some typeName
    parameters := []
    isStatic := field.isStatic
    isDeprecated := field.isDeprecated
    summary := (context.documentation field.name field.name).summary.getD
      (joined " " (words ++ [typeName, field.name])) }

/-- The name of a parameter: as the compiler recorded it, else as documented, else by the
tags of the summary, else by its position. -/
def parameterName (method : Method) (documentation : MemberDocumentation)
    (tags : List String) (position : Nat) : String :=
  match method.parameterName? position with
  | some name => name
  | none =>
    match documentation.parameterNames[position]? with
    | some name => name
    | none => tags[position]?.getD (positionalName position)

/-- The entry of a method. -/
def methodMember (context : MemberContext) (method : Method) : Member :=
  let documentation := context.documentation method.name method.key
  let tags := (documentation.summary.map taggedNames).getD []
  let parameters := method.type.parameters.zipIdx.map fun (type, position) =>
    (⟨type.qualifiedName, parameterName method documentation tags position⟩ : MemberParameter)
  let modifiers := AccessFlags.methodModifiers method.flags
  let head := if modifiers = "" then method.resultName else modifiers ++ " " ++ method.resultName
  { kind := .method
    name := method.name
    owner := some context.description.name
    key := method.key
    resultType := method.type.result.map FieldType.qualifiedName
    parameters
    isStatic := method.isStatic
    isDeprecated := method.isDeprecated
    summary := documentation.summary.getD
      (head ++ " " ++ method.name ++ "(" ++ Member.writtenParameters parameters ++ ")") }

/-- The entry of the property that an accessor stands for. -/
def propertyMember (context : MemberContext) (method : Method) (name : String) : Member :=
  { kind := .property
    name
    owner := some context.description.name
    key := name
    resultType := some method.resultName
    parameters := []
    isStatic := false
    isDeprecated := method.isDeprecated
    summary := method.resultName ++ " " ++ name }

/-- The entries of a method: none, itself, or itself and its property. -/
def methodMembers (context : MemberContext) (method : Method) : List Member :=
  if method.isConstructor || method.isStaticInitializer || method.isCompilerGenerated then []
  else if !context.isVisible method.isPublic method.isStatic then []
  else
    let property :=
      if context.beanProperties then
        ((propertyName? method).map (context.propertyMember method)).toList
      else []
    context.methodMember method :: property

/-- The members of the class in order. -/
def members (context : MemberContext) : List Member :=
  let fields := context.description.fields.filter fun field =>
    context.isVisible field.isPublic field.isStatic
  fields.map context.fieldMember ++ context.description.methods.flatMap context.methodMembers

end MemberContext

end ClassAtlas
