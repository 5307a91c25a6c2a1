import EtherCalc.Expr

namespace EtherCalc.Expr

mutual

/-- The names of the variables in a tree, from left to right. -/
def variableNames : Expr → List String
  | .number _ | .scientific _ _ | .string _ | .bool _ => []
  | .variable name => if (booleanWord? name).isSome then [] else [name]
  | .amount value _ => value.variableNames
  | .negate operand => operand.variableNames
  | .binary _ left right => left.variableNames ++ right.variableNames
  | .not operand => operand.variableNames
  | .index target position => target.variableNames ++ position.variableNames
  | .member target _ => target.variableNames
  | .call callee args => callee.variableNames ++ variableNamesAll args
termination_by structural expr => expr

def variableNamesAll : List Expr → List String
  | [] => []
  | expr :: rest => expr.variableNames ++ variableNamesAll rest
termination_by structural exprs => exprs

end

variable {name key : String} {expr : Expr}

/-- Only a name that is no word for a boolean is a variable. -/
theorem mem_variableNames_variable :
    key ∈ (Expr.variable name).variableNames ↔ key = name ∧ booleanWord? name = none := by
  rw [variableNames]
  cases booleanWord? name <;> simp

/-- The variables of the parts of a tree are variables of the tree. -/
theorem variableNamesAll_children (expr : Expr) :
    ∀ name ∈ variableNamesAll expr.children, name ∈ expr.variableNames := by
  intro name member
  cases expr with
  | amount | negate | not | member | binary | index =>
      simpa [children, variableNamesAll, variableNames] using member
  | call callee args => exact member
  | _ => cases member

mutual

theorem booleanWord?_of_mem_variableNames : (expr : Expr) →
    ∀ name ∈ expr.variableNames, booleanWord? name = none
  | .number _ | .scientific _ _ | .string _ | .bool _ => nofun
  | .variable name => by
      intro key member
      obtain ⟨rfl, free⟩ := mem_variableNames_variable.mp member
      exact free
  | .amount inner _ | .negate inner | .not inner | .member inner _ =>
      booleanWord?_of_mem_variableNames inner
  | .binary _ left right | .index left right =>
      List.forall_mem_append.mpr
        ⟨booleanWord?_of_mem_variableNames left, booleanWord?_of_mem_variableNames right⟩
  | .call callee args =>
      List.forall_mem_append.mpr
        ⟨booleanWord?_of_mem_variableNames callee, booleanWord?_of_mem_variableNamesAll args⟩

theorem booleanWord?_of_mem_variableNamesAll : (exprs : List Expr) →
    ∀ name ∈ variableNamesAll exprs, booleanWord? name = none
  | [] => nofun
  | expr :: rest =>
      List.forall_mem_append.mpr
        ⟨booleanWord?_of_mem_variableNames expr, booleanWord?_of_mem_variableNamesAll rest⟩

end

end EtherCalc.Expr
