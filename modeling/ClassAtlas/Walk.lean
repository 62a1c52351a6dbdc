/-!
# Walks through graphs

A walk starts with some pending nodes, takes the first pending node again and
again, skips it when a node of the same key was visited before, and otherwise
visits it and puts its successors in front of the pending nodes. `visits` lists
the visited nodes in order. Only nodes with successors make a walk longer, so a
bound on the number of their keys bounds the walk; cycles do no harm.
-/

namespace ClassAtlas.Walk

variable {β κ : Type} [DecidableEq κ]

/-- Takes pending nodes until one with successors is visited, then goes on with `deeper`.
Visited nodes are kept newest first. -/
def sweep (key : β → κ) (next : β → List β) (deeper : List β → List β → List β) :
    (pending visited : List β) → List β
  | [], visited => visited.reverse
  | node :: pending, visited =>
    if visited.any fun other => key other = key node then
      sweep key next deeper pending visited
    else
      match next node with
      | [] => sweep key next deeper pending (node :: visited)
      | successors => deeper (successors ++ pending) (node :: visited)

/-- The walk from some pending nodes, behind the nodes visited so far, in which `limit`
nodes with successors may be visited. -/
def walk (key : β → κ) (next : β → List β) : (limit : Nat) → (pending visited : List β) → List β
  | 0 => sweep key next fun _ visited => visited.reverse
  | limit + 1 => sweep key next (walk key next limit)

/-- The nodes visited from some starting nodes, in order. Every node with successors that
can be reached has its key among at most `limit` keys. -/
def visits (key : β → κ) (next : β → List β) (limit : Nat) (start : List β) : List β :=
  walk key next limit start []

/-- A list up to and including the first element that passes a test. -/
def upToFirst (test : β → Bool) : List β → List β
  | [] => []
  | node :: rest => if test node then [node] else node :: upToFirst test rest

end ClassAtlas.Walk
