import EtherCalc.Nested
import EtherCalc.Proofs.Loop
import Mathlib

/-!
The leaves of a forest from left to right, by recursion on its nodes, and a loop that finds them.

The loop keeps, for each branch that it is inside of, the children of it that it has yet to visit,
those of the innermost branch first.  What `leavesAfter` has pending is these lists one after the
other, so that each turn of the loop leaves its result as it is.

How the leaves are grouped into branches is what is lost: two forests have the same leaves when
putting runs of siblings into branches, and taking them out again, leads from one to the other.
-/

namespace EtherCalc.Nested

variable {α : Type}

mutual

/-- Of a leaf its value, of a branch the leaves of its children one after the other. -/
def frontier : Nested α → List α
  | .leaf value => [value]
  | .branch children => frontierAll children
termination_by structural nested => nested

def frontierAll : List (Nested α) → List α
  | [] => []
  | nested :: rest => nested.frontier ++ frontierAll rest
termination_by structural nesteds => nesteds

end

section

variable {found : List α} {forest left right pending : List (Nested α)}

theorem frontierAll_append (left right : List (Nested α)) :
    frontierAll (left ++ right) = frontierAll left ++ frontierAll right := by
  induction left with
  | nil => rfl
  | cons nested rest ih => simp [frontierAll, ih]

theorem leavesAfter_eq : leavesAfter found pending = found.reverse ++ frontierAll pending := by
  induction found, pending using leavesAfter.induct with
  | case1 found => simp [leavesAfter, frontierAll]
  | case2 found value rest ih => simp [leavesAfter, ih, frontierAll, frontier]
  | case3 found children rest ih =>
      rw [leavesAfter, ih, frontierAll_append, frontierAll, frontier]

theorem leaves_eq : leaves forest = frontierAll forest := by
  rw [leaves, leavesAfter_eq, List.reverse_nil, List.nil_append]

theorem frontierAll_eq_flatMap : frontierAll forest = forest.flatMap frontier := by
  induction forest with
  | nil => rfl
  | cons nested rest ih => rw [frontierAll, ih, List.flatMap_cons]

theorem leaves_singleton (nested : Nested α) : leaves [nested] = nested.frontier := by
  rw [leaves_eq, frontierAll, frontierAll, List.append_nil]

/-- The second forest is the first with a run of siblings put into a branch, among the trees of the
forest or inside one of them.  A run of no siblings puts an empty branch between two. -/
inductive Groups : List (Nested α) → List (Nested α) → Prop where
  | wrap (before run after : List (Nested α)) :
      Groups (before ++ run ++ after) (before ++ .branch run :: after)
  | inside {children children' : List (Nested α)} (before after : List (Nested α))
      (groups : Groups children children') :
      Groups (before ++ .branch children :: after) (before ++ .branch children' :: after)

theorem Groups.frontierAll_eq (groups : Groups left right) :
    frontierAll left = frontierAll right := by
  induction groups with
  | wrap before run after => simp [frontierAll_append, frontierAll, frontier]
  | inside before after groups ih => simp [frontierAll_append, frontierAll, frontier, ih]

open Relation (EqvGen)

mutual

/-- Among any siblings a node may be replaced by its leaves. -/
theorem eqvGen_frontier : (nested : Nested α) → (before after : List (Nested α)) →
    EqvGen Groups (before ++ nested :: after) (before ++ nested.frontier.map .leaf ++ after)
  | .leaf value, before, after => by
      rw [frontier, List.map_singleton, List.append_assoc, List.singleton_append]
      exact .refl _
  | .branch children, before, after => by
      have opened : EqvGen Groups (before ++ .branch children :: after)
          (before ++ children ++ after) := (EqvGen.rel _ _ (.wrap before children after)).symm
      rw [frontier]
      exact opened.trans _ _ _ (eqvGen_frontierAll children before after)
termination_by structural nested => nested

theorem eqvGen_frontierAll : (nesteds before after : List (Nested α)) →
    EqvGen Groups (before ++ nesteds ++ after)
      (before ++ (frontierAll nesteds).map .leaf ++ after)
  | [], before, after => by
      rw [frontierAll, List.map_nil]
      exact .refl _
  | nested :: rest, before, after => by
      have first : EqvGen Groups (before ++ nested :: rest ++ after)
          (before ++ nested.frontier.map .leaf ++ rest ++ after) := by
        simpa using eqvGen_frontier nested before (rest ++ after)
      have others := eqvGen_frontierAll rest (before ++ nested.frontier.map .leaf) after
      rw [frontierAll, List.map_append, ← List.append_assoc before]
      exact first.trans _ _ _ others
termination_by structural nesteds => nesteds

end

/-- Both forests can be taken apart into the forest of their leaves. -/
theorem frontierAll_eq_iff :
    frontierAll left = frontierAll right ↔ EqvGen Groups left right := by
  constructor
  · intro same
    have apart : ∀ forest : List (Nested α),
        EqvGen Groups forest ((frontierAll forest).map .leaf) := by
      intro forest
      simpa using eqvGen_frontierAll forest [] []
    have leftApart := apart left
    rw [same] at leftApart
    exact leftApart.trans _ _ _ (apart right).symm
  · intro grouped
    induction grouped with
    | rel _ _ groups => exact groups.frontierAll_eq
    | refl => rfl
    | symm _ _ _ ih => exact ih.symm
    | trans _ _ _ _ _ first second => exact first.trans second

end

/-- The leaves that are found and, of the forest and of each branch that the loop is inside of, the
nodes that it has yet to visit.  The innermost branch comes first. -/
structure Traversal (α : Type) where
  found : List α
  suspended : List (List (Nested α))

namespace Traversal

variable {state next : Traversal α}

def start (forest : List (Nested α)) : Traversal α :=
  ⟨[], [forest]⟩

/-- One turn of the loop: it leaves a branch that is used up, or else visits the next node of it. -/
def step : Traversal α → Option (Traversal α)
  | ⟨_, []⟩ => none
  | ⟨found, [] :: outer⟩ => some ⟨found, outer⟩
  | ⟨found, (.leaf value :: rest) :: outer⟩ => some ⟨found ++ [value], rest :: outer⟩
  | ⟨found, (.branch children :: rest) :: outer⟩ => some ⟨found, children :: rest :: outer⟩

/-- To enter a branch takes its node away and adds a list, so a node counts twice. -/
def size (state : Traversal α) : Nat :=
  2 * nodesAll state.suspended.flatten + state.suspended.length

/-- What the loop will have found in the end.  The pending nodes are the suspended lists one after
the other. -/
def result (state : Traversal α) : List α :=
  leavesAfter state.found.reverse state.suspended.flatten

theorem size_step (taken : step state = some next) : next.size < state.size := by
  fun_cases step state with
  | case1 => cases taken
  | case2 found outer =>
      cases taken
      simp [size]
  | case3 found value rest outer =>
      cases taken
      simp [size, nodesAll, nodes]
  | case4 found children rest outer =>
      cases taken
      simp only [size, List.flatten_cons, List.cons_append, nodesAll_append, nodesAll, nodes,
        List.length_cons]
      omega

theorem result_step (taken : step state = some next) : next.result = state.result := by
  fun_cases step state with
  | case1 => cases taken
  | case2 found outer =>
      cases taken
      simp [result]
  | case3 found value rest outer =>
      cases taken
      simp [result, leavesAfter]
  | case4 found children rest outer =>
      cases taken
      simp [result, leavesAfter]

theorem eq_of_step_none (ended : step state = none) : state = ⟨state.result, []⟩ := by
  fun_cases step state with
  | case1 found => simp [result, leavesAfter]
  | _ => cases ended

theorem eval_start (forest : List (Nested α)) :
    StateTransition.eval step (start forest) = Part.some ⟨leaves forest, []⟩ := by
  have begun : (start forest).result = leaves forest := by simp [start, result, leaves]
  rw [← begun]
  exact loop_ends size result (⟨·, []⟩) size_step result_step eq_of_step_none (start forest)

end Traversal

/-- The loop over suspended branches ends for every forest, with its leaves from left to right.  The
leaves of a forest are those of its trees one after the other, and two forests have the same leaves
just if they differ in how runs of siblings, empty ones among them, are put into branches. -/
theorem leaves_left_to_right (α : Type) :
    (∀ forest : List (Nested α),
      StateTransition.eval Traversal.step (.start forest) = Part.some ⟨leaves forest, []⟩ ∧
        leaves forest = frontierAll forest ∧
        leaves forest = forest.flatMap fun nested => leaves [nested]) ∧
    (∀ left right : List (Nested α), leaves (left ++ right) = leaves left ++ leaves right) ∧
    ∀ left right : List (Nested α),
      leaves left = leaves right ↔ Relation.EqvGen Groups left right := by
  refine ⟨fun forest => ⟨Traversal.eval_start forest, leaves_eq, ?_⟩, fun left right => ?_,
    fun left right => ?_⟩
  · simp only [leaves_singleton]
    rw [leaves_eq, frontierAll_eq_flatMap]
  · rw [leaves_eq, leaves_eq, leaves_eq, frontierAll_append]
  · rw [leaves_eq, leaves_eq, frontierAll_eq_iff]

example : leaves [.leaf 1, .branch [.leaf 2, .branch [.leaf 3, .leaf 4], .leaf 5], .branch [],
    .leaf 6] = [1, 2, 3, 4, 5, 6] := by
  cbv

end EtherCalc.Nested
