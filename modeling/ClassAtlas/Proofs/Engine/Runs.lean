import ClassAtlas.Engine.Calls
import ClassAtlas.Engine.Invalidation

/-!
# Runs of an engine

A run is a list of calls on an engine, each of which sees what the calls before
it have left behind. Queries leave the registered libraries as they are; the
other two calls register and remove one. The files stay the same during a run.
-/

namespace ClassAtlas

/-- A call that leaves the registered libraries as they are. -/
inductive EngineQuery where
  /-- Resolves a declaration. -/
  | resolve (declaration : TypeDeclaration)
  /-- Resolves a type name as the caller wrote it. -/
  | resolveName (name : String) (staticsOnly : Bool)
  /-- Shows the completions of a declaration. -/
  | completions (declaration : TypeDeclaration)
  /-- Resolves a call against the completions of a declaration. -/
  | resolveCallSite (declaration : TypeDeclaration) (call : CallSite)
  /-- Resolves a written call against a type name. -/
  | resolveCall (typeName call : String)
  /-- Resolves a call against the global functions. -/
  | resolveFunctionCall (call : CallSite)
  /-- Adds global keywords. -/
  | mergeKeywords (keywords : List Keyword)
  /-- Drops the records of some types and of what depends on them. -/
  | invalidate (names : List String)
  /-- Drops all records. -/
  | clearCache
  /-- Forgets the discovered aliases. -/
  | resetAliases

/-- A call on an engine. -/
inductive EngineCall where
  /-- A call that leaves the registered libraries as they are. -/
  | query (query : EngineQuery)
  /-- Registers a library. -/
  | register (location : Location) (sourceLocation : Option SourceLocation)
  /-- Removes a library. -/
  | remove (location : Location)

namespace Engine

/-- The engine after a query. A written call that cannot be read changes nothing. -/
def answer (tree : FileTree) (engine : Engine) : EngineQuery → Engine
  | .resolve declaration => engine.resolve tree declaration
  | .resolveName name staticsOnly =>
    engine.resolve tree ((engine.declaration name).withStaticsOnly staticsOnly)
  | .completions declaration => engine.resolve tree declaration
  | .resolveCallSite declaration call => (engine.resolveCallSite tree declaration call).2
  | .resolveCall typeName call =>
    match engine.resolveCall tree typeName call with
    | .ok (_, engine) => engine
    | .error _ => engine
  | .resolveFunctionCall call => (engine.resolveFunctionCall tree call).2
  | .mergeKeywords keywords => engine.mergeKeywords keywords
  | .invalidate names => engine.invalidate names
  | .clearCache => engine.clearCache
  | .resetAliases => engine.resetAliases

/-- The engine after a call. A registration that fails changes nothing. -/
def perform (tree : FileTree) (engine : Engine) : EngineCall → Engine
  | .query query => engine.answer tree query
  | .register location sourceLocation =>
    match engine.registerLibrary tree location sourceLocation with
    | .ok (_, engine) => engine
    | .error _ => engine
  | .remove location => engine.removeLibrary location

/-- The record that resolving a declaration answers with. -/
def resolved (tree : FileTree) (engine : Engine) (declaration : TypeDeclaration) : ResolvedType :=
  (engine.resolve tree declaration).record tree declaration

/-- The members that asking for the completions of a declaration answers with. -/
def completed (tree : FileTree) (engine : Engine) (declaration : TypeDeclaration) :
    List Member :=
  (engine.resolve tree declaration).completions tree declaration

/-- The engine after some queries. -/
def answerAll (tree : FileTree) (engine : Engine) (queries : List EngineQuery) : Engine :=
  queries.foldl (answer tree) engine

/-- The engine after some calls. -/
def performAll (tree : FileTree) (engine : Engine) (calls : List EngineCall) : Engine :=
  calls.foldl (perform tree) engine

end Engine

end ClassAtlas
