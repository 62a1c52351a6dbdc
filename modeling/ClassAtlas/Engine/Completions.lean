import ClassAtlas.Engine.Basic

/-!
# Completions

The completions of a type are its members and those of everything it extends. A
member is hidden by a member of the same key of a type further down on the way
to it; types off that way hide nothing.
-/

namespace ClassAtlas

/-- A type on the way through the extensions, with the keys hidden from it. -/
structure ChainStep where
  /-- The declaration. -/
  declaration : TypeDeclaration
  /-- The keys of the members of the types on the way. -/
  hidden : List String
  deriving DecidableEq, Repr

namespace Engine

/-- The steps from a type to the types it extends. -/
def stepsAbove (tree : FileTree) (engine : Engine) (step : ChainStep) : List ChainStep :=
  let resolved := engine.record tree step.declaration
  let hidden := step.hidden ++ resolved.members.map (·.key)
  resolved.extensions.map fun extended => ⟨extended, hidden⟩

/-- The types that contribute to the completions of a declaration, in order: first
extensions first, each followed by what it extends. -/
def contributions (tree : FileTree) (engine : Engine) (declaration : TypeDeclaration) :
    List ChainStep :=
  Walk.visits (·.declaration) (engine.stepsAbove tree) engine.extendingBound [⟨declaration, []⟩]

/-- The members that a type contributes. -/
def contributed (tree : FileTree) (engine : Engine) (step : ChainStep) : List Member :=
  (engine.record tree step.declaration).members.filter fun member =>
    !step.hidden.contains member.key

/-- The completions of a declaration. The engine that shows them has resolved it. -/
def completions (tree : FileTree) (engine : Engine) (declaration : TypeDeclaration) :
    List Member :=
  (engine.contributions tree declaration).flatMap (engine.contributed tree)

end Engine

end ClassAtlas
