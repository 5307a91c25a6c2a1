namespace EtherCalc

/-!
Results nested to any depth, as a grammar may hand them over, and the plain list of them.
`leaves` visits a branch by putting its children in front of what is pending, so that the
depth of the nesting costs no depth of calls.
-/

inductive Nested (α : Type) where
  | leaf (value : α)
  | branch (children : List (Nested α))

namespace Nested

variable {α : Type}

mutual

def nodes : Nested α → Nat
  | .leaf _ => 1
  | .branch children => nodesAll children + 1
termination_by structural nested => nested

def nodesAll : List (Nested α) → Nat
  | [] => 0
  | nested :: rest => nested.nodes + nodesAll rest
termination_by structural nesteds => nesteds

end

theorem nodesAll_append (left right : List (Nested α)) :
    nodesAll (left ++ right) = nodesAll left + nodesAll right := by
  induction left with
  | nil => simp [nodesAll]
  | cons nested rest ih => simp [nodesAll, ih, Nat.add_assoc]

/-- The leaves of the pending nodes, after those that were found before, last first. -/
def leavesAfter (found : List α) : List (Nested α) → List α
  | [] => found.reverse
  | .leaf value :: rest => leavesAfter (value :: found) rest
  | .branch children :: rest => leavesAfter found (children ++ rest)
termination_by pending => nodesAll pending
decreasing_by
  · simp [nodesAll, nodes]
  · simp [nodesAll_append, nodesAll, nodes]

def leaves (forest : List (Nested α)) : List α :=
  leavesAfter [] forest

end Nested

end EtherCalc
