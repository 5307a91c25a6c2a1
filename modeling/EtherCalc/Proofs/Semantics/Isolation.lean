import EtherCalc.Proofs.Semantics.Limits
import EtherCalc.Proofs.Host.Uniform

namespace EtherCalc

section

variable {host : Host} {config : Config} {context context' : Context}

mutual

theorem Evaluates.congr {expr : Expr} {id : Nat} {outcome : Outcome Value}
    (evaluates : Evaluates host config context expr id outcome)
    (agree : ∀ name ∈ expr.variableNames, context.get? name = context'.get? name) :
    Evaluates host config context' expr id outcome := by
  -- What is said of a tree with parts holds of its parts.
  have agreeParts (name : String) (member : name ∈ Expr.variableNamesAll expr.children) :
      context.get? name = context'.get? name :=
    agree name (expr.variableNamesAll_children name member)
  have lookup {name : String} (same : expr = .variable name) (free : booleanWord? name = none) :
      context.get? name = context'.get? name := by
    subst same
    exact agree name (Expr.mem_variableNames_variable.mpr ⟨rfl, free⟩)
  match evaluates with
  | .number valid => exact .number valid
  | .scientific valid => exact .scientific valid
  | .string => exact .string
  | .bool => exact .bool
  | .reserved word => exact .reserved word
  | .bound free found => exact .bound free ((lookup rfl free).symm.trans found)
  | .undefined free absent policy =>
      exact .undefined free ((lookup rfl free).symm.trans absent) policy
  | .unbound free absent policy => exact .unbound free ((lookup rfl free).symm.trans absent) policy
  | .amount parts => exact .amount (parts.congr agreeParts)
  | .negate parts => exact .negate (parts.congr agreeParts)
  | .not parts => exact .not (parts.congr agreeParts)
  | .binary parts => exact .binary (parts.congr agreeParts)
  | .index parts => exact .index (parts.congr agreeParts)
  | .member parts => exact .member (parts.congr agreeParts)
  | .call parts => exact .call (parts.congr agreeParts)
  | .stopped parts => exact .stopped (parts.congr agreeParts)

theorem EvaluatesAll.congr {exprs : List Expr} {id : Nat} {outcome : Outcome (List Value)}
    (evaluates : EvaluatesAll host config context exprs id outcome)
    (agree : ∀ name ∈ Expr.variableNamesAll exprs, context.get? name = context'.get? name) :
    EvaluatesAll host config context' exprs id outcome := by
  match evaluates with
  | .nil => exact .nil
  | .cons first others =>
      obtain ⟨agreeFirst, agreeRest⟩ := List.forall_mem_append.mp agree
      exact .cons (first.congr agreeFirst) (others.congr agreeRest)
  | .first failed =>
      obtain ⟨agreeFirst, agreeRest⟩ := List.forall_mem_append.mp agree
      exact .first (failed.congr agreeFirst)
  | .later first failed =>
      obtain ⟨agreeFirst, agreeRest⟩ := List.forall_mem_append.mp agree
      exact .later (first.congr agreeFirst) (failed.congr agreeRest)

end

theorem Program.run_congr {expr : Expr} {program : Program} {id : Nat}
    (compiled : ofExpr config expr = .ok program)
    (agree : ∀ name ∈ expr.variableNames, context.get? name = context'.get? name) :
    program.run host context id = program.run host context' id := by
  have evaluates : Evaluates host config context expr id (program.run host context id) :=
    evaluates_run expr compiled id
  exact ((run_eq_iff_evaluates compiled).mpr (evaluates.congr agree)).symm

end

namespace Context

variable {context context' : Context} {name : String} {value : Value}

/-- Identities that are in use in both contexts are paired with themselves, and no others. -/
def common (context context' : Context) : Matching :=
  .diagonal (min context.nextId context'.nextId) context.nextId context'.nextId
    (Nat.min_le_left _ _) (Nat.min_le_right _ _)

theorem nextIdFields_perm {fields fields' : List (String × Value)} (perm : fields.Perm fields') :
    Value.nextIdFields fields = Value.nextIdFields fields' := by
  induction perm with
  | nil => rfl
  | cons field _ ih => rw [Value.nextIdFields, Value.nextIdFields, ih]
  | swap field other rest =>
      simp only [Value.nextIdFields]
      omega
  | trans _ _ ih ihAfter => exact ih.trans ihAfter

/-- The order of the bindings is not seen when a name is looked up. -/
theorem get?_perm (perm : context.bindings.Perm context'.bindings) :
    context.get? name = context'.get? name := by
  refine Option.ext fun value => ?_
  rw [get?, get?, Entries.find?_eq_some_iff context.distinct,
    Entries.find?_eq_some_iff context'.distinct]
  exact perm.mem_iff

end Context

/-- What a program does is settled by the bindings of the variables of its tree.  Contexts that have
these in common give one outcome; bindings of other names, of words for booleans, and the order of
the bindings do not count.  With identities of their own to start from, and a host that does not
look at identities, two evaluations differ in those that they make, which are paired one to one. -/
theorem Program.run_sees_variables (config : Config) (expr : Expr) (program : Program)
    (compiled : compile config expr = .ok program) :
    (∀ (host : Host) (context context' : Context),
      (∀ name ∈ expr.variableNames, context.get? name = context'.get? name) →
        (∀ id, program.run host context id = program.run host context' id) ∧
        (host.Uniform (min context.nextId context'.nextId) →
          Run.Corresponds Matching.Grows Value.Corresponds (context.common context')
            (program.run host context) (program.run host context'))) ∧
    (∀ (host : Host) (context : Context) (name : String) (value : Value) (id : Nat),
      name ∉ expr.variableNames ∨ (booleanWord? name).isSome = true →
        program.run host (context.define name value) id = program.run host context id) ∧
    ∀ (host : Host) (context context' : Context), context.bindings.Perm context'.bindings →
      program.run host context context.nextId = program.run host context' context'.nextId := by
  obtain ⟨_, compiled⟩ := compile_eq_ok.mp compiled
  refine ⟨fun host context context' agree =>
      ⟨fun id => run_congr compiled agree, fun uniform => ?_⟩,
    fun host context name value id other => ?_, fun host context context' perm => ?_⟩
  · exact run_corresponds uniform expr compiled Matching.fixes_diagonal
      (Context.agrees_of_fixes agree Matching.fixes_diagonal)
  · have absent : name ∉ expr.variableNames := by
      intro member
      rcases other with absent | reserved
      · exact absent member
      · rw [expr.booleanWord?_of_mem_variableNames name member] at reserved
        contradiction
    refine run_congr compiled fun key member => ?_
    have differs : key ≠ name := by
      rintro rfl
      exact absent member
    rw [Context.get?_define, if_neg differs]
  · have same : context.nextId = context'.nextId := Context.nextIdFields_perm perm
    rw [same]
    exact run_congr compiled fun name _ => Context.get?_perm perm

/-- The array that the function makes has another identity where the context has more of them; a
binding of `TRUE` does not make the word a name, also in a tree that has it as one. -/
theorem Program.run_sees_variables_list :
    let expr : Expr := .call (.variable "f") [.variable "TRUE"]
    let program : Program := .call (.variable "f" .error) [.literal (.bool true)]
    let code : Function := ⟨0, "f", 1, .list⟩
    let context := Context.empty.define "f" (.function code)
    let larger := context.define "other" (.array 5 [])
    let event := Event.called code .undefined [.bool true]
    compile ⟨.error, 0, 9⟩ expr = .ok program ∧
      program.run .standard context 1 = ⟨.ok (.array 1 [.bool true]), [event], 2⟩ ∧
      program.run .standard larger 6 = ⟨.ok (.array 6 [.bool true]), [event], 7⟩ ∧
      Run.Corresponds Matching.Grows Value.Corresponds (context.common larger)
        (program.run .standard context) (program.run .standard larger) ∧
      program.run .standard (context.define "TRUE" (.int 0)) 1 =
        ⟨.ok (.array 1 [.bool true]), [event], 2⟩ := by
  intro expr program code context larger event
  have compiled : compile ⟨.error, 0, 9⟩ expr = .ok program := by cbv
  have outcome : program.run .standard context 1 = ⟨.ok (.array 1 [.bool true]), [event], 2⟩ := rfl
  obtain ⟨agreeing, others, _⟩ := run_sees_variables ⟨.error, 0, 9⟩ expr program compiled
  have agree : ∀ name ∈ expr.variableNames, context.get? name = larger.get? name := by
    intro name member
    obtain rfl := List.mem_singleton.mp member
    rfl
  refine ⟨compiled, outcome, rfl, ?_, ?_⟩
  · exact (agreeing .standard context larger agree).2 Host.Standard.uniform
  · rw [others .standard context "TRUE" (.int 0) 1 (.inr rfl), outcome]

end EtherCalc
