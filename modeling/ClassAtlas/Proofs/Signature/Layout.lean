import ClassAtlas.Signature
import Mathlib.Data.Set.List

/-!
# Layouts of signatures

A declared signature can be written in many ways: with runs of layout between its
parts, with generic arguments behind a type, with `...` in place of the last array
dimension. A layout is one of these ways. It has a text, and it has the signature
that is left when the choices of writing are forgotten. No reader is mentioned here.
-/

namespace ClassAtlas

namespace Signature

open Text

/-! ## Parts without a meaning of their own -/

/-- A run of layout characters, which may be empty. -/
structure Gap where
  /-- The characters. -/
  text : List Char
  /-- Each of them is layout. -/
  isLayout_of_mem : ∀ c ∈ text, isLayout c = true

/-- The gap of no characters. -/
def Gap.empty : Gap := ⟨[], fun _ h => absurd h List.not_mem_nil⟩

/-- The gap of a single space. -/
def Gap.space : Gap := ⟨[' '], List.forall_mem_singleton.2 rfl⟩

/-- Texts in which every angle bracket has its partner. -/
inductive Balanced : List Char → Prop where
  /-- Nothing. -/
  | nil : Balanced []
  /-- A character that is no angle bracket. -/
  | other {c : Char} {rest : List Char} (hopen : c ≠ '<') (hclose : c ≠ '>')
      (hrest : Balanced rest) : Balanced (c :: rest)
  /-- A group. -/
  | group {inner rest : List Char} (hinner : Balanced inner) (hrest : Balanced rest) :
      Balanced ('<' :: (inner ++ '>' :: rest))

/-- Generic arguments in angle brackets. -/
structure GenericArguments where
  /-- What stands in front of them. -/
  before : Gap
  /-- What stands between the brackets. -/
  inner : List Char
  /-- The brackets are those of the same group. -/
  balanced : Balanced inner

/-- The text of generic arguments. -/
def GenericArguments.text (arguments : GenericArguments) : List Char :=
  arguments.before.text ++ '<' :: (arguments.inner ++ ['>'])

/-- The brackets of an array dimension. -/
structure Brackets where
  /-- What stands in front of them. -/
  before : Gap
  /-- What stands between them. -/
  inside : Gap

/-- The text of a pair of brackets. -/
def Brackets.text (brackets : Brackets) : List Char :=
  brackets.before.text ++ '[' :: (brackets.inside.text ++ [']'])

/-! ## Names -/

/-- A run of at least one identifier character. -/
structure Identifier where
  /-- The characters. -/
  text : List Char
  /-- There are some. -/
  text_ne_nil : text ≠ []
  /-- Each of them may stand in an identifier. -/
  isIdentifierChar_of_mem : ∀ c ∈ text, isIdentifierChar c = true

/-- Identifiers divided by points. -/
structure DottedName where
  /-- The first identifier. -/
  first : Identifier
  /-- The others, each behind a point. -/
  others : List Identifier

/-- The text of a dotted name. -/
def DottedName.text (name : DottedName) : List Char :=
  name.first.text ++ name.others.flatMap fun other => '.' :: other.text

/-! ## Types and parameters -/

/-- A way to write a type. -/
structure TypeLayout where
  /-- The type without its dimensions. -/
  base : DottedName
  /-- Generic arguments, if there are any. -/
  generics : Option GenericArguments
  /-- The dimensions in brackets. -/
  brackets : List Brackets
  /-- What stands in front of `...`, if the last dimension is written so. -/
  ellipsis : Option Gap

namespace TypeLayout

/-- The number of array dimensions. -/
def dimensions (type : TypeLayout) : Nat :=
  type.brackets.length + if type.ellipsis.isSome then 1 else 0

/-- The text of the last dimension, if it is written as `...`. -/
def ellipsisText (type : TypeLayout) : List Char :=
  type.ellipsis.elim [] fun before => before.text ++ ['.', '.', '.']

/-- The text of a type. -/
def text (type : TypeLayout) : List Char :=
  type.base.text ++ (type.generics.elim [] GenericArguments.text
    ++ (type.brackets.flatMap Brackets.text ++ type.ellipsisText))

/-- The type that is written. -/
def typeName (type : TypeLayout) : String :=
  arrayName type.base.text type.dimensions

/-- The way to write a type with all dimensions in empty brackets and nothing else. -/
def plain (base : DottedName) (dimensions : Nat) : TypeLayout :=
  ⟨base, none, List.replicate dimensions ⟨.empty, .empty⟩, none⟩

theorem typeName_plain (base : DottedName) (dimensions : Nat) :
    (plain base dimensions).typeName = arrayName base.text dimensions := by
  simp [typeName, plain, TypeLayout.dimensions]

end TypeLayout

/-- A parameter name with the layout in front of it. -/
structure NameLayout where
  /-- What divides the name from the type. -/
  before : Gap
  /-- They are divided. -/
  before_ne_nil : before.text ≠ []
  /-- The name. -/
  name : Identifier

/-- The text of a parameter name with the layout in front of it. -/
def NameLayout.text (name : NameLayout) : List Char :=
  name.before.text ++ name.name.text

/-- A way to write a parameter. -/
structure ParameterLayout where
  /-- What stands in front. -/
  before : Gap
  /-- The type. -/
  type : TypeLayout
  /-- The name, if one is given. -/
  name : Option NameLayout
  /-- What stands behind. -/
  behind : Gap

namespace ParameterLayout

/-- The text of a parameter. -/
def text (parameter : ParameterLayout) : List Char :=
  parameter.before.text ++ (parameter.type.text
    ++ (parameter.name.elim [] NameLayout.text ++ parameter.behind.text))

/-- The parameter that is written. -/
def meaning (parameter : ParameterLayout) : WrittenParameter :=
  ⟨parameter.type.typeName, parameter.name.map fun name => String.ofList name.name.text⟩

end ParameterLayout

/-- Parameters, each behind a comma. -/
def furtherText (parameters : List ParameterLayout) : List Char :=
  parameters.flatMap fun parameter => ',' :: parameter.text

/-- Parameters divided by commas. -/
def parametersText : List ParameterLayout → List Char
  | [] => []
  | first :: others => first.text ++ furtherText others

end Signature

open Signature

/-! ## Signatures -/

/-- A way to write a signature. -/
structure SignatureLayout where
  /-- What stands in front. -/
  before : Gap
  /-- The name. -/
  name : DottedName
  /-- What stands between the name and the opening parenthesis. -/
  beforeOpen : Gap
  /-- The parameters. -/
  parameters : List ParameterLayout
  /-- What stands in front of the closing parenthesis. -/
  beforeClose : Gap
  /-- What stands behind. -/
  behind : Gap

namespace SignatureLayout

/-- The text of a signature. -/
def text (layout : SignatureLayout) : List Char :=
  layout.before.text ++ (layout.name.text ++ (layout.beforeOpen.text
    ++ '(' :: (parametersText layout.parameters
      ++ (layout.beforeClose.text ++ ')' :: layout.behind.text))))

/-- The signature that is written. -/
def signature (layout : SignatureLayout) : WrittenSignature :=
  ⟨String.ofList layout.name.text, layout.parameters.map ParameterLayout.meaning⟩

end SignatureLayout

/-- Whether a parameter can be declared: its type is a dotted name with some dimensions, and its
name, if it has one, is an identifier. -/
structure WrittenParameter.Declared (parameter : WrittenParameter) : Prop where
  /-- The type. -/
  typeName : ∃ (base : DottedName) (dimensions : Nat),
    parameter.typeName = arrayName base.text dimensions
  /-- The name. -/
  name : ∀ name, parameter.name = some name →
    ∃ identifier : Identifier, name = String.ofList identifier.text

/-- Whether a signature can be declared: its name is a dotted name, and its parameters can be
declared. -/
structure WrittenSignature.Declared (signature : WrittenSignature) : Prop where
  /-- The name. -/
  name : ∃ name : DottedName, signature.name = String.ofList name.text
  /-- The parameters. -/
  parameters : ∀ parameter ∈ signature.parameters, parameter.Declared

/-- A parameter can be declared exactly if there is a way to write it. -/
theorem WrittenParameter.declared_iff_exists_layout {parameter : WrittenParameter} :
    parameter.Declared ↔ ∃ layout : ParameterLayout, layout.meaning = parameter := by
  constructor
  · rintro ⟨⟨base, dimensions, htype⟩, hname⟩
    obtain ⟨typeName, name⟩ := parameter
    -- the plainest way, with one space in front of the name
    have hplain : ∃ layout : Option NameLayout,
        (layout.map fun layout => String.ofList layout.name.text) = name := by
      cases name with
      | none => exact ⟨none, rfl⟩
      | some name =>
        obtain ⟨identifier, rfl⟩ := hname name rfl
        exact ⟨some ⟨.space, List.cons_ne_nil _ _, identifier⟩, rfl⟩
    obtain ⟨layout, rfl⟩ := hplain
    refine ⟨⟨.empty, .plain base dimensions, layout, .empty⟩, ?_⟩
    rw [ParameterLayout.meaning, TypeLayout.typeName_plain, ← htype]
  · rintro ⟨layout, rfl⟩
    refine ⟨⟨layout.type.base, layout.type.dimensions, rfl⟩, ?_⟩
    intro name hname
    obtain ⟨written, -, rfl⟩ := Option.map_eq_some_iff.1 hname
    exact ⟨written.name, rfl⟩

/-- A signature can be declared exactly if there is a way to write it. -/
theorem WrittenSignature.declared_iff_exists_layout {signature : WrittenSignature} :
    signature.Declared ↔ ∃ layout : SignatureLayout, layout.signature = signature := by
  constructor
  · rintro ⟨⟨name, hname⟩, hparameters⟩
    obtain ⟨written, parameters⟩ := signature
    have hlayouts : ∃ layouts : List ParameterLayout,
        layouts.map ParameterLayout.meaning = parameters := by
      have hmem : parameters ∈ Set.range (List.map ParameterLayout.meaning) := by
        rw [Set.range_list_map]
        intro parameter hparameter
        exact WrittenParameter.declared_iff_exists_layout.1 (hparameters parameter hparameter)
      exact hmem
    obtain ⟨layouts, rfl⟩ := hlayouts
    refine ⟨⟨.empty, name, .empty, layouts, .empty, .empty⟩, ?_⟩
    rw [SignatureLayout.signature, ← hname]
  · rintro ⟨layout, rfl⟩
    refine ⟨⟨layout.name, rfl⟩, ?_⟩
    intro parameter hparameter
    obtain ⟨written, -, rfl⟩ := List.mem_map.1 hparameter
    exact WrittenParameter.declared_iff_exists_layout.2 ⟨written, rfl⟩

end ClassAtlas
