import EtherCalc.Expr.Depth

namespace EtherCalc.Expr

mutual

/-- Zero for a tree without children, else one more than the height of its tallest child. -/
def height : Expr → Nat
  | .number _ | .scientific _ _ | .string _ | .bool _ | .variable _ => 0
  | .amount value _ => value.height + 1
  | .negate operand => operand.height + 1
  | .binary _ left right => max left.height right.height + 1
  | .not operand => operand.height + 1
  | .index target position => max target.height position.height + 1
  | .member target _ => target.height + 1
  | .call callee args => max callee.height (heightAll args) + 1
termination_by structural expr => expr

def heightAll : List Expr → Nat
  | [] => 0
  | expr :: rest => max expr.height (heightAll rest)
termination_by structural exprs => exprs

end

theorem heightAll_le_iff {limit : Nat} {exprs : List Expr} :
    heightAll exprs ≤ limit ↔ ∀ expr ∈ exprs, expr.height ≤ limit := by
  induction exprs with
  | nil => simp [heightAll]
  | cons expr rest ih => rw [heightAll, Nat.max_le, List.forall_mem_cons, ih]

/-- A tree at a distance from the root stays within a limit when it and its children do. -/
theorem height_le_iff {limit distance : Nat} {expr : Expr} :
    distance + expr.height ≤ limit ↔
      distance ≤ limit ∧ ∀ child ∈ expr.children, distance + 1 + child.height ≤ limit := by
  cases expr with
  | amount | negate | not | member =>
      simp only [height, children, List.mem_singleton, forall_eq]
      omega
  | binary | index =>
      simp only [height, children, List.mem_cons, List.not_mem_nil, or_false, forall_eq_or_imp,
        forall_eq]
      omega
  | call callee args =>
      have bounded : distance + 1 + heightAll args ≤ limit ↔
          distance + 1 ≤ limit ∧ ∀ arg ∈ args, distance + 1 + arg.height ≤ limit := by
        by_cases fits : distance + 1 ≤ limit
        · obtain ⟨room, rfl⟩ := Nat.exists_eq_add_of_le fits
          simp only [Nat.add_le_add_iff_left, heightAll_le_iff, Nat.le_add_right, true_and]
        · omega
      simp only [height, children, List.forall_mem_cons]
      grind
  | _ => simp [height, children]

theorem deepestFrom_le_iff {limit deepest : Nat} {pending : List (Expr × Nat)} :
    deepestFrom deepest pending ≤ limit ↔
      deepest ≤ limit ∧ ∀ item ∈ pending, item.2 + item.1.height ≤ limit := by
  induction deepest, pending using deepestFrom.induct with
  | case1 deepest => simp [deepestFrom]
  | case2 deepest expr distance rest ih =>
      rw [deepestFrom, ih, List.forall_mem_cons, List.forall_mem_append, height_le_iff]
      simp only [List.forall_mem_map, Nat.max_le, and_assoc]

theorem depth_eq_height (expr : Expr) : expr.depth = expr.height := by
  have same : ∀ limit, expr.depth ≤ limit ↔ expr.height ≤ limit := by
    intro limit
    simp [depth, deepestFrom_le_iff]
  exact Nat.le_antisymm ((same _).mpr (Nat.le_refl _)) ((same _).mp (Nat.le_refl _))

theorem checkDepth_eq {limit : Nat} {expr : Expr} : expr.checkDepth limit =
    if expr.height ≤ limit then .ok () else .error (.unlocated (.tooDeep limit)) := by
  rw [checkDepth, depth_eq_height]
  by_cases fits : expr.height ≤ limit
  · rw [if_pos fits, if_neg (Nat.not_lt_of_le fits)]
  · rw [if_neg fits, if_pos (Nat.lt_of_not_le fits)]

end EtherCalc.Expr
