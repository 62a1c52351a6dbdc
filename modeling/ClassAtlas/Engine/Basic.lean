import ClassAtlas.Completion.Collector
import ClassAtlas.Completion.Keyword
import ClassAtlas.Engine.Config
import ClassAtlas.Library.Supertypes

/-!
# The engine

An engine resolves type declarations to records: the class, its members, and the
declarations of the types it extends. Records are made once and cached; making
one asks the index for a class and may discover an alias. Resolving a type also
resolves everything on its chain of extensions.
-/

namespace ClassAtlas

/-- What is known about a declaration. -/
structure ResolvedType where
  /-- The declaration. -/
  declaration : TypeDeclaration
  /-- The decoded class; none when no library holds it. -/
  description : Option ClassDescription
  /-- The members of the type itself, with distinct keys. -/
  members : List Member
  /-- The superclass first, then the interfaces. -/
  extensions : List TypeDeclaration

namespace ResolvedType

/-- The record of a type that no library holds. -/
def missing (declaration : TypeDeclaration) : ResolvedType :=
  ⟨declaration, none, [], []⟩

/-- Whether the type was found. -/
def isFound (resolved : ResolvedType) : Bool :=
  resolved.description.isSome

/-- The member of a key. -/
def member? (resolved : ResolvedType) (key : String) : Option Member :=
  resolved.members.find? (·.key = key)

end ResolvedType

/-- A cached record; no two records ever made have the same serial number. -/
structure CachedType where
  /-- How many records were made before this one. -/
  serial : Nat
  /-- The record. -/
  resolved : ResolvedType

/-- Resolves types and calls against an index of libraries. -/
structure Engine where
  /-- The registered libraries. -/
  index : LibraryIndex
  /-- The settings. -/
  config : EngineConfig
  /-- Who documents members. -/
  provider : Option DocumentationProvider
  /-- Aliases known so far. -/
  registry : AliasRegistry
  /-- Records by declaration. -/
  cache : Table TypeDeclaration CachedType
  /-- The global keywords. -/
  keywords : List Member
  /-- How many records were made. -/
  populations : Nat

namespace Engine

/-- A fresh engine over an index. -/
def ofIndex (index : LibraryIndex) (config : EngineConfig)
    (provider : Option DocumentationProvider) : Engine :=
  { index, config, provider
    registry := AliasRegistry.ofConfigured config.aliases
    cache := .empty
    keywords := []
    populations := 0 }

/-- The declaration of a type name as the caller wrote it: an alias, a simple name in one
of the default packages, or a qualified name. -/
def declaration (engine : Engine) (name : String) : TypeDeclaration :=
  match engine.registry.declaration? name with
  | some declaration => declaration
  | none =>
    let members :=
      if Text.isQualified name then []
      else engine.config.defaultPackages.map (· ++ "." ++ name)
    TypeDeclaration.ofName ((members.find? engine.index.contains).getD name)

/-- The source text of a class, as far as it can be read. -/
def sourceText (tree : FileTree) (engine : Engine) (description : ClassDescription) :
    Option String := do
  let library ← engine.index.owner? description.name
  let location ← library.sourceLocation
  match location.readSource tree description.name with
  | .ok text => text
  | .error _ => none

/-- The class that a declaration leads to. -/
def description? (tree : FileTree) (engine : Engine) (declaration : TypeDeclaration) :
    Option ClassDescription :=
  engine.index.lookupIn? tree declaration.qualifiedName "" engine.config.defaultPackages

/-- The supertypes of a class that are attached to it. -/
def extensions (config : EngineConfig) (description : ClassDescription) (staticsOnly : Bool) :
    List TypeDeclaration :=
  (description.supertypes.filter fun name => !config.ignoredSupertypes.contains name).map
    fun name => ⟨name, staticsOnly⟩

/-- The record of a class for a declaration. -/
def recordOf (tree : FileTree) (engine : Engine) (declaration : TypeDeclaration)
    (description : ClassDescription) : ResolvedType :=
  let context : MemberContext :=
    { description
      staticsOnly := declaration.staticsOnly
      beanProperties := engine.config.beanProperties
      provider := engine.provider
      sourceText :=
        if engine.provider.isSome then engine.sourceText tree description else none }
  { declaration
    description := some description
    members := Member.firstByKey context.members
    extensions := extensions engine.config description declaration.staticsOnly }

/-- The record of a declaration, made from the index. -/
def freshRecord (tree : FileTree) (engine : Engine) (declaration : TypeDeclaration) :
    ResolvedType :=
  match engine.description? tree declaration with
  | some description => engine.recordOf tree declaration description
  | none => .missing declaration

/-- The cached record of a declaration. -/
def cached? (engine : Engine) (declaration : TypeDeclaration) : Option CachedType :=
  engine.cache.get? declaration

/-- The record of a declaration, from the cache if it is there. -/
def record (tree : FileTree) (engine : Engine) (declaration : TypeDeclaration) :
    ResolvedType :=
  match engine.cached? declaration with
  | some cached => cached.resolved
  | none => engine.freshRecord tree declaration

/-- The registry after a class has been found under its simple name. -/
def discoverAlias (registry : AliasRegistry) : Option ClassDescription → AliasRegistry
  | some description => (registry.register description.simpleName description.name).2
  | none => registry

/-- Makes and caches the record of a declaration unless it is cached. -/
def populate (tree : FileTree) (engine : Engine) (declaration : TypeDeclaration) : Engine :=
  match engine.cached? declaration with
  | some _ => engine
  | none =>
    let resolved := engine.freshRecord tree declaration
    { engine with
      index := engine.index.requestIn tree declaration.qualifiedName ""
        engine.config.defaultPackages
      registry := discoverAlias engine.registry resolved.description
      cache := engine.cache.insert declaration ⟨engine.populations, resolved⟩
      populations := engine.populations + 1 }

/-- A bound on the number of declarations with extensions. -/
def extendingBound (engine : Engine) : Nat :=
  engine.cache.keys.length + engine.index.lookupNames.length

/-- A declaration and everything on its chain of extensions, in the order of resolution:
the last extension first. -/
def chain (tree : FileTree) (engine : Engine) (declaration : TypeDeclaration) :
    List TypeDeclaration :=
  Walk.visits id (fun declaration => (engine.record tree declaration).extensions.reverse)
    engine.extendingBound [declaration]

/-- The engine after a declaration has been resolved. -/
def resolve (tree : FileTree) (engine : Engine) (declaration : TypeDeclaration) : Engine :=
  (engine.chain tree declaration).foldl (populate tree) engine

end Engine

end ClassAtlas
