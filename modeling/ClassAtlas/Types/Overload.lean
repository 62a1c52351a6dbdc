import ClassAtlas.Types.Conversion

/-!
# Overload selection

A call is resolved against candidates by the sum of the conversion scores of its
arguments. The lowest sum below `noMatch` wins, among equal sums the earliest
candidate.
-/

namespace ClassAtlas

/-- What a call can be resolved against. -/
structure Candidate where
  /-- The name of the callee. -/
  name : String
  /-- The parameter types, in platform spelling. -/
  parameterTypes : List String
  deriving DecidableEq, Repr

namespace AliasRegistry

/-- The sum of the scores of arguments with their parameters, on top of a sum so far;
`noMatch` as soon as one cannot be converted. -/
def sumScores (registry : AliasRegistry) :
    (sofar : Nat) → List (String × String) → Inquiry Nat
  | sofar, [] => return sofar
  | sofar, (actual, formal) :: rest => do
    let score ← registry.parameterScore actual formal
    if noMatch ≤ score then return noMatch
    else sumScores registry (sofar + score) rest

/-- The score of a candidate for a call. -/
def score (registry : AliasRegistry) (candidate : Candidate) (name : String)
    (arguments : List String) : Inquiry Nat :=
  if candidate.name ≠ name ∨ candidate.parameterTypes.length ≠ arguments.length then
    return noMatch
  else registry.sumScores 0 (arguments.zip candidate.parameterTypes)

/-- The best of further candidates and the best one so far with its score. -/
def bestBehind {γ : Type} (registry : AliasRegistry) (view : γ → Candidate) (name : String)
    (arguments : List String) : (best : Option (γ × Nat)) → List γ → Inquiry (Option (γ × Nat))
  | best, [] => return best
  | best, item :: rest => do
    let score ← registry.score (view item) name arguments
    let bound := match best with
      | some (_, lowest) => lowest
      | none => noMatch
    if score < bound then bestBehind registry view name arguments (some (item, score)) rest
    else bestBehind registry view name arguments best rest

/-- The candidate with the lowest score below `noMatch`, the earliest one of several. -/
def best {γ : Type} (registry : AliasRegistry) (view : γ → Candidate) (candidates : List γ)
    (name : String) (arguments : List String) : Inquiry (Option (γ × Nat)) :=
  registry.bestBehind view name arguments none candidates

end AliasRegistry

end ClassAtlas
