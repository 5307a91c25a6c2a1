import EtherCalc.Proofs.Semantics.Compilation

/-!
The connectives obey the laws of Boolean algebra, although they return operands and not truths.

What `and` and `or` return is as true as it should be, and a conjunction of several values is the
first of them that is false, or else the last, however it is grouped.  No operand is skipped, so
that both sides of a law run the same operands in the same order, and the laws carry over to
computations that fail or call the host.
-/

namespace EtherCalc

namespace Value

/-- What a conjunction returns. -/
def both (left right : Value) : Value :=
  if left.isTruthy then right else left

/-- What a disjunction returns. -/
def either (left right : Value) : Value :=
  if left.isTruthy then left else right

section

open Arithmetic

variable {left right last value : Value}

@[simp] theorem isTruthy_both : (left.both right).isTruthy = (left.isTruthy && right.isTruthy) := by
  unfold both
  cases truth : left.isTruthy <;> simp [truth]

@[simp] theorem isTruthy_either :
    (left.either right).isTruthy = (left.isTruthy || right.isTruthy) := by
  unfold either
  cases truth : left.isTruthy <;> simp [truth]

@[simp] theorem isTruthy_logicalNot : (logicalNot value).isTruthy = !value.isTruthy := by
  rw [logicalNot_eq, isTruthy]

theorem both_assoc : (left.both right).both last = left.both (right.both last) := by
  unfold both
  cases truth : left.isTruthy <;> simp [truth]

theorem either_assoc : (left.either right).either last = left.either (right.either last) := by
  unfold either
  cases truth : left.isTruthy <;> simp [truth]

theorem logicalNot_both :
    logicalNot (left.both right) = (logicalNot left).either (logicalNot right) := by
  unfold either
  simp only [logicalNot_eq, isTruthy_both, Bool.not_and]
  cases left.isTruthy <;> simp [isTruthy]

theorem logicalNot_either :
    logicalNot (left.either right) = (logicalNot left).both (logicalNot right) := by
  unfold both
  simp only [logicalNot_eq, isTruthy_either, Bool.not_or]
  cases left.isTruthy <;> simp [isTruthy]

theorem logicalNot_thrice : logicalNot (logicalNot (logicalNot value)) = logicalNot value := by
  rw [logicalNot_eq, isTruthy_logicalNot, isTruthy_logicalNot, Bool.not_not, logicalNot_eq]

end

end Value

namespace Run

/-- The negation of what a computation returns. -/
def negation (operand : Run Value) : Run Value := do
  let value ← operand
  return Arithmetic.logicalNot value

/-- Two computations, and an operator on what they return. -/
def operation (op : Operator) (first second : Run Value) : Run Value := do
  let left ← first
  let right ← second
  ofExcept (Arithmetic.apply op left right)

variable {first second third : Run Value}

theorem conjunction_eq : operation .and first second =
    first >>= fun left => second >>= fun right => Pure.pure (left.both right) :=
  rfl

theorem disjunction_eq : operation .or first second =
    first >>= fun left => second >>= fun right => Pure.pure (left.either right) :=
  rfl

theorem negation_conjunction : negation (operation .and first second) =
    operation .or (negation first) (negation second) := by
  simp only [negation, conjunction_eq, disjunction_eq, bind_assoc, pure_bind,
    Value.logicalNot_both]

theorem negation_disjunction : negation (operation .or first second) =
    operation .and (negation first) (negation second) := by
  simp only [negation, conjunction_eq, disjunction_eq, bind_assoc, pure_bind,
    Value.logicalNot_either]

theorem conjunction_assoc : operation .and (operation .and first second) third =
    operation .and first (operation .and second third) := by
  simp only [conjunction_eq, bind_assoc, pure_bind, Value.both_assoc]

theorem disjunction_assoc : operation .or (operation .or first second) third =
    operation .or first (operation .or second third) := by
  simp only [disjunction_eq, bind_assoc, pure_bind, Value.either_assoc]

theorem negation_negation_negation : negation (negation (negation first)) = negation first := by
  simp only [negation, bind_assoc, pure_bind, Value.logicalNot_thrice]

end Run

namespace Expr

/-- What compiling a tree and running its program does. -/
def evaluate (config : Config) (host : Host) (context : Context) (expr : Expr) : Run Value := do
  let program ← Run.ofExcept (Program.compile config expr)
  program.run host context

/-- The trees have the same value or error in every context, and ask the same of the host, provided
that neither is too tall. -/
def Equivalent (left right : Expr) : Prop :=
  ∀ config : Config, left.height ≤ config.maxDepth → right.height ≤ config.maxDepth →
    ∀ host context id, left.evaluate config host context id = right.evaluate config host context id

/-- The computation of a tree, or the fault of its leftmost faulty literal. -/
def computation (config : Config) (host : Host) (context : Context) (expr : Expr) :
    Except EvalError (Run Value) := do
  let program ← Program.ofExpr config expr
  return program.run host context

section

variable {config : Config} {host : Host} {context : Context} {expr left right : Expr}
variable {op : Operator}

theorem computation_not : (Expr.not expr).computation config host context =
    expr.computation config host context >>= fun run => pure run.negation := by
  simp only [computation, Program.ofExpr, bind_assoc, pure_bind]
  rfl

theorem computation_binary : (Expr.binary op left right).computation config host context =
    left.computation config host context >>= fun first =>
      right.computation config host context >>= fun second =>
        pure (Run.operation op first second) := by
  simp only [computation, Program.ofExpr, bind_assoc, pure_bind]
  rfl

theorem evaluate_eq (low : expr.height ≤ config.maxDepth) :
    expr.evaluate config host context =
      Run.ofExcept (expr.computation config host context) >>= id := by
  rw [evaluate, Program.compile_eq_ofExpr low, computation]
  cases Program.ofExpr config expr <;> rfl

theorem Equivalent.of_computation (same : ∀ config host context,
    left.computation config host context = right.computation config host context) :
    left.Equivalent right := by
  intro config low lowRight host context id
  rw [evaluate_eq low, evaluate_eq lowRight, same]

/-- An engine that finds the tree in a source does with the source what is done with the tree. -/
theorem evaluate_of_feed {engine : Engine} {source : String}
    (fed : engine.grammar.feed engine.config source = .ok [.leaf expr])
    (low : expr.height ≤ engine.config.maxDepth) :
    engine.evaluate host context source =
      expr.evaluate engine.config host context context.nextId := by
  rw [Engine.evaluate, Engine.parse_of_feed fed low, evaluate]
  cases Program.compile engine.config expr <;> rfl

end

/-- The laws of De Morgan, the associative laws, and that three negations are as good as one. -/
theorem connectives_boolean (a b c : Expr) :
    (Expr.not (.binary .and a b)).Equivalent (.binary .or (.not a) (.not b)) ∧
    (Expr.not (.binary .or a b)).Equivalent (.binary .and (.not a) (.not b)) ∧
    (Expr.binary .and (.binary .and a b) c).Equivalent (.binary .and a (.binary .and b c)) ∧
    (Expr.binary .or (.binary .or a b) c).Equivalent (.binary .or a (.binary .or b c)) ∧
    (Expr.not (.not (.not a))).Equivalent (.not a) := by
  refine ⟨?_, ?_, ?_, ?_, ?_⟩
  all_goals
    refine .of_computation fun config host context => ?_
    simp only [computation_not, computation_binary, bind_assoc, pure_bind]
  · simp only [Run.negation_conjunction]
  · simp only [Run.negation_disjunction]
  · simp only [Run.conjunction_assoc]
  · simp only [Run.disjunction_assoc]
  · simp only [Run.negation_negation_negation]

/-- Both sides call both functions, of which the first one decides and the second one fails, and a
disjunction returns the first operand that is true, however it is grouped. -/
theorem connectives_boolean_calls :
    let no : Function := ⟨0, "no", 0, .constant false⟩
    let stop : Function := ⟨1, "stop", 1, .divideByZero⟩
    let context := (Context.empty.define "no" (.function no)).define "stop" (.function stop)
    let a : Expr := .call (.variable "no") []
    let b : Expr := .call (.variable "stop") [.number "7"]
    let c : Expr := .string "'c'"
    let stopped : Outcome Value :=
      ⟨.error .divisionByZero, [.called no .undefined [], .called stop .undefined [.big 7]], 2⟩
    let found : Outcome Value := ⟨.ok (.string "c"), [.called no .undefined []], 2⟩
    (Expr.not (.binary .and a b)).evaluate .default .standard context 2 = stopped ∧
      (Expr.binary .or (.not a) (.not b)).evaluate .default .standard context 2 = stopped ∧
      Engine.evaluate .standard context
        ⟨.default, .canned [.leaf (.binary .or (.not a) (.not b))]⟩ "" = stopped ∧
      (Expr.binary .or (.binary .or a (.bool false)) c).evaluate .default .standard context 2 =
        found ∧
      (Expr.binary .or a (.binary .or (.bool false) c)).evaluate .default .standard context 2 =
        found := by
  intro no stop context a b c stopped found
  obtain ⟨negated, _⟩ := connectives_boolean a b c
  obtain ⟨_, _, _, grouped, _⟩ := connectives_boolean a (.bool false) c
  have left : (Expr.not (.binary .and a b)).evaluate .default .standard context 2 = stopped := by
    cbv
  have first : (Expr.binary .or (.binary .or a (.bool false)) c).evaluate .default .standard
      context 2 = found := by cbv
  have right : (Expr.binary .or (.not a) (.not b)).evaluate .default .standard context 2 =
      stopped := by rw [← negated .default (by decide) (by decide), left]
  refine ⟨left, right, ?_, first, ?_⟩
  · exact (evaluate_of_feed rfl (by decide)).trans right
  · rw [← grouped .default (by decide) (by decide), first]

end Expr

end EtherCalc
