import EtherCalc.Proofs.Expr.Height
import EtherCalc.Proofs.Loop
import Mathlib

namespace EtherCalc.Expr

/-- The trees in a root, each with its distance from the root. -/
inductive Subtree (root : Expr) : Nat → Expr → Prop where
  | root : Subtree root 0 root
  | child {distance : Nat} {parent child : Expr} (above : Subtree root distance parent)
      (member : child ∈ parent.children) : Subtree root (distance + 1) child

theorem Subtree.height_le {root part : Expr} {distance limit : Nat}
    (subtree : Subtree root distance part) (low : root.height ≤ limit) :
    distance + part.height ≤ limit := by
  induction subtree with
  | root => rwa [Nat.zero_add]
  | child above member ih => exact (height_le_iff.mp ih).2 _ member

/-- Zero for a tree without children, else one more than the greatest height of a child. -/
theorem height_eq_max (expr : Expr) :
    expr.height = (expr.children.map height).max?.elim 0 (· + 1) := by
  refine eq_of_forall_ge_iff fun limit => ?_
  have bounded : expr.height ≤ limit ↔ ∀ child ∈ expr.children, child.height < limit := by
    have atRoot : 0 + expr.height ≤ limit ↔
        0 ≤ limit ∧ ∀ child ∈ expr.children, 0 + 1 + child.height ≤ limit := height_le_iff
    simpa [Nat.add_comm 1, Nat.succ_le_iff] using atRoot
  rw [bounded]
  cases greatest : (expr.children.map height).max? with
  | none =>
      have childless : expr.children = [] := by simpa using greatest
      simp [childless]
  | some tallest =>
      obtain ⟨member, above⟩ := List.max?_eq_some_iff.mp greatest
      obtain ⟨child, isChild, rfl⟩ := List.mem_map.mp member
      constructor
      · intro low
        exact low child isChild
      · intro low other isOther
        exact Nat.lt_of_le_of_lt (above _ (List.mem_map_of_mem isOther)) low

theorem checkDepth_eq_ok_iff {expr : Expr} {limit : Nat} :
    expr.checkDepth limit = .ok () ↔ expr.height ≤ limit := by
  rw [checkDepth_eq]
  by_cases fits : expr.height ≤ limit <;> simp [fits]

theorem checkDepth_eq_error_iff {expr : Expr} {limit : Nat} {error : ParseError} :
    expr.checkDepth limit = .error error ↔
      limit < expr.height ∧ error = .unlocated (.tooDeep limit) := by
  rw [checkDepth_eq]
  by_cases fits : expr.height ≤ limit
  · simp [fits]
  · simp [fits, Nat.lt_of_not_le fits, eq_comm]

theorem nodesAll_reverse (exprs : List Expr) : nodesAll exprs.reverse = nodesAll exprs := by
  induction exprs with
  | nil => rfl
  | cons expr rest ih =>
      simp only [List.reverse_cons, nodesAll_append, nodesAll, ih]
      omega

/-- The greatest distance so far, and the trees that the loop has yet to visit, each with its
distance, the next one first. -/
structure Survey where
  deepest : Nat
  pending : List (Expr × Nat)

namespace Survey

variable {state next : Survey}

def start (expr : Expr) : Survey :=
  ⟨0, [(expr, 0)]⟩

/-- One turn of the loop.  Of the children, which come on the stack from left to right, the last one
is the next to be visited. -/
def step : Survey → Option Survey
  | ⟨_, []⟩ => none
  | ⟨deepest, (expr, distance) :: rest⟩ =>
      some ⟨max deepest distance, (expr.children.map (·, distance + 1)).reverse ++ rest⟩

def size (state : Survey) : Nat :=
  nodesAll (state.pending.map (·.1))

def result (state : Survey) : Nat :=
  deepestFrom state.deepest state.pending

theorem size_step (taken : step state = some next) : next.size < state.size := by
  fun_cases step state with
  | case1 => cases taken
  | case2 deepest expr distance rest =>
      cases taken
      simp [size, nodesAll_append, nodesAll_reverse, nodesAll, nodes_children expr,
        Function.comp_def]

theorem result_step (taken : step state = some next) : next.result = state.result := by
  fun_cases step state with
  | case1 => cases taken
  | case2 deepest expr distance rest =>
      cases taken
      -- What bounds `deepestFrom` does not depend on the order of the pending trees.
      refine eq_of_forall_ge_iff fun limit => ?_
      rw [result, result, deepestFrom, deepestFrom_le_iff, deepestFrom_le_iff]
      simp only [List.forall_mem_append, List.mem_reverse]

theorem eq_of_step_none (ended : step state = none) : state = ⟨state.result, []⟩ := by
  fun_cases step state with
  | case1 deepest => simp [result, deepestFrom]
  | case2 => cases ended

theorem eval_start (expr : Expr) :
    StateTransition.eval step (start expr) = Part.some ⟨expr.depth, []⟩ := by
  have begun : (start expr).result = expr.depth := rfl
  rw [← begun]
  exact loop_ends size result (⟨·, []⟩) size_step result_step eq_of_step_none (start expr)

end Survey

/-- The loop that visits pending trees from right to left ends for every tree, with its depth, which
is the height of the tree.  A tree is accepted just if its height is within the limit, and then the
height of what is below the root is within the limit less the distance. -/
theorem depth_measures_height (expr : Expr) :
    StateTransition.eval Survey.step (.start expr) = Part.some ⟨expr.depth, []⟩ ∧
    expr.depth = expr.height ∧
    expr.depth = (expr.children.map depth).max?.elim 0 (· + 1) ∧
    ∀ limit,
      (expr.checkDepth limit = .ok () ↔ expr.height ≤ limit) ∧
      (∀ error, expr.checkDepth limit = .error error ↔
        limit < expr.height ∧ error = .unlocated (.tooDeep limit)) ∧
      (expr.checkDepth limit = .ok () → ∀ distance part, expr.Subtree distance part →
        distance + part.height ≤ limit) := by
  have same : depth = height := funext depth_eq_height
  refine ⟨Survey.eval_start expr, depth_eq_height expr, ?_, fun limit => ?_⟩
  · rw [same]
    exact height_eq_max expr
  · refine ⟨checkDepth_eq_ok_iff, fun error => checkDepth_eq_error_iff, ?_⟩
    intro accepted distance part subtree
    exact subtree.height_le (checkDepth_eq_ok_iff.mp accepted)

/-- In `f(1, 1 + !1)` the negation is two steps below the root, so that a limit of three leaves one
for its height. -/
theorem depth_measures_height_call :
    let one : Expr := .number "1"
    let sum : Expr := .binary .add one (.not one)
    let call : Expr := .call (.variable "f") [one, sum]
    call.depth = 3 ∧ call.checkDepth 3 = .ok () ∧ call.Subtree 2 (.not one) ∧
      2 + (Expr.not one).height ≤ 3 := by
  intro one sum call
  obtain ⟨_, measured, _, checked⟩ := depth_measures_height call
  obtain ⟨accepts, _, below⟩ := checked 3
  have tall : call.height = 3 := rfl
  have accepted : call.checkDepth 3 = .ok () := accepts.mpr tall.le
  have sumBelow : call.Subtree 1 sum := .child .root (by simp [call, children])
  have notBelow : call.Subtree 2 (.not one) := .child sumBelow (by simp [sum, children])
  exact ⟨measured.trans tall, accepted, notBelow, below accepted 2 _ notBelow⟩

end EtherCalc.Expr
