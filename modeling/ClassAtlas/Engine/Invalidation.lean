import ClassAtlas.Engine.Basic

/-!
# Invalidation

When classes change, their cached records go, and with them the records of all
types whose chain of extensions reaches one of them. Registering a library drops
every record, since any type may have gained supertypes.
-/

namespace ClassAtlas.Engine

/-- The names of the cached types that extend a type. -/
def dependents (cache : Table TypeDeclaration CachedType) (name : String) : List String :=
  (cache.entries.filter fun entry =>
    entry.2.resolved.extensions.any (·.qualifiedName = name)).map (·.1.qualifiedName)

/-- A bound on the number of names with dependents. -/
def extendedBound (cache : Table TypeDeclaration CachedType) : Nat :=
  (cache.entries.flatMap fun entry => entry.2.resolved.extensions).length

/-- Some names and everything that depends on them. -/
def affected (cache : Table TypeDeclaration CachedType) (names : List String) : List String :=
  Walk.visits id (dependents cache) (extendedBound cache) names

/-- Drops the records of the named types and of everything that depends on them. -/
def invalidate (engine : Engine) (names : List String) : Engine :=
  let gone := affected engine.cache names
  { engine with
    cache := engine.cache.filterKeys fun declaration =>
      !gone.contains declaration.qualifiedName }

/-- Drops all records. -/
def clearCache (engine : Engine) : Engine :=
  { engine with cache := .empty }

/-- Forgets the discovered aliases. -/
def resetAliases (engine : Engine) : Engine :=
  { engine with registry := engine.registry.reset }

/-- Registers a library and drops all records; a failure leaves the engine alone. -/
def registerLibrary (tree : FileTree) (engine : Engine) (location : Location)
    (sourceLocation : Option SourceLocation) :
    Except RegistrationError (Library × Engine) :=
  (engine.index.register tree location sourceLocation).map fun (library, index) =>
    (library, { engine with index }.clearCache)

/-- Removes a library with the records of the types it served. -/
def removeLibrary (engine : Engine) (location : Location) : Engine :=
  let (removed, index) := engine.index.remove location
  { engine with index }.invalidate removed

end ClassAtlas.Engine
