import ClassAtlas.Engine.Completions

/-!
# Calls

A call is resolved against the callable completions of a type, or against the
global functions. Conversions are judged by the aliases known to the engine and
by the hierarchy of its index, whose classes are asked for as far as the
judgement needs them.
-/

namespace ClassAtlas

/-- What a call resolves to. -/
inductive CallResolution where
  /-- The best member with its score. -/
  | resolved (member : Member) (score : Nat)
  /-- No member takes the arguments. -/
  | noMatch
  /-- No library holds the type. -/
  | typeNotFound
  deriving DecidableEq, Repr

/-- The resolution for the best candidate. -/
def CallResolution.ofBest : Option (Member × Nat) → CallResolution
  | some (member, score) => .resolved member score
  | none => .noMatch

namespace Engine

/-- Runs an inquiry against the index, which is asked for the consulted classes. -/
def judge {α : Type} (tree : FileTree) (engine : Engine) (inquiry : Inquiry α) : α × Engine :=
  let hierarchy := engine.index.hierarchy tree
  let index := (inquiry.consulted hierarchy).foldl (LibraryIndex.request tree) engine.index
  (inquiry.result hierarchy, { engine with index })

/-- The best of some candidates for a call. -/
def bestOverload {γ : Type} (tree : FileTree) (engine : Engine) (view : γ → Candidate)
    (candidates : List γ) (call : CallSite) : Option (γ × Nat) × Engine :=
  engine.judge tree (engine.registry.best view candidates call.name call.arguments)

/-- Resolves a call against the completions of a declaration. -/
def resolveCallSite (tree : FileTree) (engine : Engine) (declaration : TypeDeclaration)
    (call : CallSite) : CallResolution × Engine :=
  let engine := engine.resolve tree declaration
  if !(engine.record tree declaration).isFound then (.typeNotFound, engine)
  else
    let callable := (engine.completions tree declaration).filter Member.isCallable
    let (best, engine) := engine.bestOverload tree Member.candidate callable call
    (.ofBest best, engine)

/-- Resolves a written call against a type as the caller names it. -/
def resolveCall (tree : FileTree) (engine : Engine) (typeName call : String) :
    Except SignatureError (CallResolution × Engine) :=
  (CallSite.parse call).map fun call =>
    engine.resolveCallSite tree (engine.declaration typeName) call

/-- Resolves a call against the global functions. -/
def resolveFunctionCall (tree : FileTree) (engine : Engine) (call : CallSite) :
    CallResolution × Engine :=
  let callable := engine.keywords.filter Member.isCallable
  let (best, engine) := engine.bestOverload tree Member.candidate callable call
  (.ofBest best, engine)

/-- Adds a keyword unless its key is taken. -/
def mergeKeyword (keywords : List Member) (keyword : Keyword) : List Member :=
  let member := keyword.toMember
  if keywords.any (·.key = member.key) then keywords else keywords ++ [member]

/-- Adds keywords in order. -/
def mergeKeywords (engine : Engine) (keywords : List Keyword) : Engine :=
  { engine with keywords := keywords.foldl mergeKeyword engine.keywords }

end Engine

end ClassAtlas
