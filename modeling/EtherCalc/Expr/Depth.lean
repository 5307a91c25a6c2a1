import EtherCalc.Expr
import EtherCalc.ParseError

namespace EtherCalc.Expr

/-!
How tall a tree is: zero for a tree without children, else one more than its tallest child.
A tree may come from any grammar and be of any height, so `depth` keeps the trees that it has
yet to visit in a list, each with its distance from the root, and never nests calls.
-/

theorem nodes_children (expr : Expr) : expr.nodes = nodesAll expr.children + 1 := by
  cases expr <;> simp [nodes, nodesAll, children]

theorem nodesAll_append (left right : List Expr) :
    nodesAll (left ++ right) = nodesAll left + nodesAll right := by
  induction left with
  | nil => simp [nodesAll]
  | cons expr rest ih => simp [nodesAll, ih, Nat.add_assoc]

/-- The greatest of `deepest` and the distances from the root of the nodes in and below the
pending trees. -/
def deepestFrom (deepest : Nat) : List (Expr × Nat) → Nat
  | [] => deepest
  | (expr, distance) :: rest =>
      deepestFrom (max deepest distance) (expr.children.map (·, distance + 1) ++ rest)
termination_by pending => nodesAll (pending.map (·.1))
decreasing_by
  simp [nodesAll_append, nodesAll, nodes_children expr, Function.comp_def]

def depth (expr : Expr) : Nat :=
  deepestFrom 0 [(expr, 0)]

/-- Refuses a tree that is taller than the limit. -/
def checkDepth (limit : Nat) (expr : Expr) : Except ParseError Unit :=
  if limit < expr.depth then .error (.unlocated (.tooDeep limit)) else .ok ()

end EtherCalc.Expr
