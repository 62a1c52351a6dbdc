import ClassAtlas.Table
import ClassAtlas.Text.Blank
import ClassAtlas.Types.Declaration

/-!
# Aliases of types

A dynamic caller names types by short aliases. The registry maps aliases to
qualified names, and each qualified name back to the first alias that was given
to it. It starts with built-in and configured aliases, to which discovered ones
are added; primitive names are never aliased.
-/

namespace ClassAtlas

/-- The aliases every registry starts with. -/
def builtinAliases : List (String × String) :=
  [("String", PlatformName.string), ("string", PlatformName.string),
    ("Number", PlatformName.number), ("number", PlatformName.number),
    ("Boolean", PlatformName.boolean), ("Object", PlatformName.object),
    ("object", PlatformName.object), ("any", PlatformName.object),
    ("Date", PlatformName.date), ("Array", "java.lang.Object[]")]

/-- Aliases in both directions. -/
structure AliasRegistry where
  /-- Qualified names by alias. -/
  qualified : Table String String
  /-- The first alias by qualified name. -/
  firstAlias : Table String String
  /-- The configured aliases. -/
  configured : List (String × String)
  deriving Repr, DecidableEq

namespace AliasRegistry

/-- Maps an alias, in place of what it stood for before. Primitive names are refused. -/
def assign (registry : AliasRegistry) (shortName qualifiedName : String) : AliasRegistry :=
  if isPrimitiveName shortName then registry
  else
    { registry with
      qualified := registry.qualified.insert shortName qualifiedName
      firstAlias := registry.firstAlias.insertNew qualifiedName shortName }

/-- Maps a list of aliases in order. -/
def assignAll (registry : AliasRegistry) (pairs : List (String × String)) : AliasRegistry :=
  pairs.foldl
    (fun registry (shortName, qualifiedName) => registry.assign shortName qualifiedName) registry

/-- The registry of the built-in aliases and of configured ones, where a later pair
replaces an earlier one. -/
def ofConfigured (configured : List (String × String)) : AliasRegistry :=
  (⟨.empty, .empty, configured⟩ : AliasRegistry).assignAll (builtinAliases ++ configured)

/-- Adds an alias unless it is a primitive name or taken; tells whether it was added. -/
def register (registry : AliasRegistry) (shortName qualifiedName : String) :
    Bool × AliasRegistry :=
  if registry.qualified.contains shortName || isPrimitiveName shortName then (false, registry)
  else (true, registry.assign shortName qualifiedName)

/-- Forgets the discovered aliases. -/
def reset (registry : AliasRegistry) : AliasRegistry :=
  ofConfigured registry.configured

/-- The type an alias stands for. -/
def declaration? (registry : AliasRegistry) (shortName : String) : Option TypeDeclaration :=
  (registry.qualified.get? shortName).map TypeDeclaration.ofName

/-- The first alias given to a qualified name. -/
def aliasOf? (registry : AliasRegistry) (qualifiedName : String) : Option String :=
  registry.firstAlias.get? qualifiedName

/-- The platform spelling of a type name in which an alias is replaced, if there is one;
array suffixes are kept. At most `limit` suffixes are taken off. -/
def replacement? (registry : AliasRegistry) : (limit : Nat) → (name : String) → Option String
  | limit, name =>
    let name := Text.trim name
    match elementName? name with
    | some element =>
      match limit with
      | 0 => none
      | limit + 1 => (replacement? registry limit element).map (· ++ "[]")
    | none =>
      match registry.qualified.get? name with
      | some qualifiedName => if qualifiedName = name then none else some qualifiedName
      | none => none

/-- The platform spelling of a type name: an alias is replaced, any other name only loses
the blanks around it. -/
def normalize (registry : AliasRegistry) (name : String) : String :=
  (registry.replacement? name.length name).getD (Text.trim name)

end AliasRegistry

end ClassAtlas
