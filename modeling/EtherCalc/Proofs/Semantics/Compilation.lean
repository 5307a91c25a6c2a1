import EtherCalc.Engine
import EtherCalc.Host.Standard
import EtherCalc.Proofs.Expr.Height
import EtherCalc.Proofs.Semantics.Evaluation
import Mathlib

namespace EtherCalc

namespace Expr

mutual

/-- The trees without children in a tree, from left to right. -/
def leaves : Expr → List Expr
  | .amount value _ => value.leaves
  | .negate operand => operand.leaves
  | .binary _ left right => left.leaves ++ right.leaves
  | .not operand => operand.leaves
  | .index target position => target.leaves ++ position.leaves
  | .member target _ => target.leaves
  | .call callee args => callee.leaves ++ leavesAll args
  | leaf => [leaf]
termination_by structural expr => expr

def leavesAll : List Expr → List Expr
  | [] => []
  | expr :: rest => expr.leaves ++ leavesAll rest
termination_by structural exprs => exprs

end

def literalFault? (config : Config) : Expr → Option EvalError
  | .number text => fault? (Numeral.read text)
  | .scientific mantissa exponent =>
      fault? (Numeral.scientific config.maxExponent mantissa exponent)
  | _ => none

end Expr

namespace Program

variable {config : Config}

mutual

theorem fault?_ofExpr : (expr : Expr) →
    fault? (ofExpr config expr) = expr.leaves.findSome? (Expr.literalFault? config)
  | .number text => by
      rw [ofExpr, fault?_bind_pure]
      simp [Expr.leaves, Expr.literalFault?]
  | .scientific mantissa exponent => by
      rw [ofExpr, fault?_bind_pure]
      simp [Expr.leaves, Expr.literalFault?]
  | .string _ | .bool _ => rfl
  | .variable name => by
      rw [ofExpr]
      cases booleanWord? name <;> rfl
  | .amount inner _ | .negate inner | .not inner | .member inner _ => by
      rw [ofExpr, fault?_bind_pure, fault?_ofExpr inner, Expr.leaves]
  | .binary _ left right | .index left right => by
      rw [ofExpr, fault?_bind fun _ => fault?_bind_pure, fault?_ofExpr left,
        fault?_ofExpr right, Expr.leaves, List.findSome?_append]
  | .call callee args => by
      rw [ofExpr, fault?_bind fun _ => fault?_bind_pure, fault?_ofExpr callee,
        fault?_ofExprs args, Expr.leaves, List.findSome?_append]

theorem fault?_ofExprs : (exprs : List Expr) →
    fault? (ofExprs config exprs) =
      (Expr.leavesAll exprs).findSome? (Expr.literalFault? config)
  | [] => rfl
  | expr :: rest => by
      rw [ofExprs, fault?_bind fun _ => fault?_bind_pure, fault?_ofExpr expr,
        fault?_ofExprs rest, Expr.leavesAll, List.findSome?_append]

end

variable {host : Host} {context : Context}

mutual

theorem evaluates_run : (expr : Expr) → ∀ {program}, ofExpr config expr = .ok program →
    ∀ id, Evaluates host config context expr id (program.run host context id)
  | .number text, program, compiled, id => by
      obtain ⟨value, valid, same⟩ := bind_eq_ok.mp compiled
      cases same
      exact .number valid
  | .scientific mantissa exponent, program, compiled, id => by
      obtain ⟨value, valid, same⟩ := bind_eq_ok.mp compiled
      cases same
      exact .scientific valid
  | .string _, program, compiled, id => by
      cases compiled
      exact .string
  | .bool _, program, compiled, id => by
      cases compiled
      exact .bool
  | .variable name, program, compiled, id => by
      rw [ofExpr] at compiled
      split at compiled
      · rename_i word
        cases compiled
        exact .reserved word
      · rename_i free
        obtain rfl := Except.ok.inj compiled
        unfold run
        cases found : context.get? name with
        | some value => exact .bound free found
        | none =>
            cases policy : config.unbound with
            | undefined => exact .undefined free found policy
            | error => exact .unbound free found policy
  | .amount inner unit, program, compiled, id => by
      obtain ⟨inner', compiledInner, same⟩ := bind_eq_ok.mp compiled
      cases same
      rw [run]
      refine .of_one rfl (evaluates_run inner compiledInner id) fun parts => ?_
      rw [Run.ofExcept_after]
      exact .amount parts
  | .negate inner, program, compiled, id => by
      obtain ⟨inner', compiledInner, same⟩ := bind_eq_ok.mp compiled
      cases same
      rw [run]
      refine .of_one rfl (evaluates_run inner compiledInner id) fun parts => ?_
      rw [Run.ofExcept_after]
      exact .negate parts
  | .not inner, program, compiled, id => by
      obtain ⟨inner', compiledInner, same⟩ := bind_eq_ok.mp compiled
      cases same
      rw [run_not]
      refine .of_one rfl (evaluates_run inner compiledInner id) fun parts => ?_
      rw [Run.pure_after]
      exact .not parts
  | .member target name, program, compiled, id => by
      obtain ⟨target', compiledTarget, same⟩ := bind_eq_ok.mp compiled
      cases same
      rw [run]
      exact .of_one rfl (evaluates_run target compiledTarget id) .member
  | .binary op left right, program, compiled, id => by
      obtain ⟨left', compiledLeft, compiledRest⟩ := bind_eq_ok.mp compiled
      obtain ⟨right', compiledRight, same⟩ := bind_eq_ok.mp compiledRest
      cases same
      rw [run]
      refine .of_several rfl (evaluates_run left compiledLeft id)
        (fun id => .singleton (evaluates_run right compiledRight id)) fun parts => ?_
      rw [Run.ofExcept_after]
      exact .binary parts
  | .index target position, program, compiled, id => by
      obtain ⟨target', compiledTarget, compiledRest⟩ := bind_eq_ok.mp compiled
      obtain ⟨position', compiledPosition, same⟩ := bind_eq_ok.mp compiledRest
      cases same
      rw [run]
      exact .of_several rfl (evaluates_run target compiledTarget id)
        (fun id => .singleton (evaluates_run position compiledPosition id)) .index
  | .call callee args, program, compiled, id => by
      obtain ⟨callee', compiledCallee, compiledRest⟩ := bind_eq_ok.mp compiled
      obtain ⟨args', compiledArgs, same⟩ := bind_eq_ok.mp compiledRest
      cases same
      rw [run]
      refine .of_several rfl (evaluates_run callee compiledCallee id) (fun id => ?_) .call
      rw [Outcome.map_id]
      exact evaluatesAll_runAll args compiledArgs id

theorem evaluatesAll_runAll : (exprs : List Expr) → ∀ {programs},
    ofExprs config exprs = .ok programs →
      ∀ id, EvaluatesAll host config context exprs id (runAll host context programs id)
  | [], programs, compiled, id => by
      cases compiled
      exact .nil
  | expr :: rest, programs, compiled, id => by
      obtain ⟨program, compiledFirst, compiledRest⟩ := bind_eq_ok.mp compiled
      obtain ⟨others, compiledOthers, same⟩ := bind_eq_ok.mp compiledRest
      cases same
      rw [runAll]
      exact .of_cons (evaluates_run expr compiledFirst id) (evaluatesAll_runAll rest compiledOthers)

end

theorem run_eq_iff_evaluates {expr : Expr} {program : Program} {id : Nat}
    {outcome : Outcome Value} (compiled : ofExpr config expr = .ok program) :
    program.run host context id = outcome ↔ Evaluates host config context expr id outcome := by
  have evaluates : Evaluates host config context expr id (program.run host context id) :=
    evaluates_run expr compiled id
  constructor
  · rintro rfl
    exact evaluates
  · intro other
    exact evaluates.deterministic other

theorem compile_eq_ofExpr {expr : Expr} (low : expr.height ≤ config.maxDepth) :
    compile config expr = ofExpr config expr := by
  rw [compile, Expr.checkDepth_eq, if_pos low]

end Program

theorem Engine.parse_of_feed {engine : Engine} {source : String} {expr : Expr}
    (fed : engine.grammar.feed engine.config source = .ok [.leaf expr])
    (low : expr.height ≤ engine.config.maxDepth) :
    engine.parse source = (Program.compile engine.config expr).map fun program =>
      ⟨source, engine.config, program⟩ := by
  have found : Nested.leaves [.leaf expr] = [expr] := by
    simp [Nested.leaves, Nested.leavesAfter]
  have single : Grammar.single [expr] = .ok expr := by
    simp [Grammar.single, Grammar.distinct]
  simp only [Engine.parse, fed, found, checkDepths, Expr.checkDepth_eq, if_pos low, single]
  cases Program.compile engine.config expr <;> rfl

/-- Compiling finds the leftmost faulty literal, in which case nothing runs, and else the program
has exactly the outcome of the tree. -/
theorem Program.compile_refines_evaluates (config : Config) (expr : Expr)
    (low : expr.height ≤ config.maxDepth) :
    (∀ fault, compile config expr = .error fault ↔
      ∃ before leaf later, expr.leaves = before ++ leaf :: later ∧
        leaf.literalFault? config = some fault ∧
        ∀ sound ∈ before, sound.literalFault? config = none) ∧
    (∀ fault grammar source, compile config expr = .error fault →
      grammar.feed config source = .ok [.leaf expr] → ∀ host context,
        Engine.evaluate host context ⟨config, grammar⟩ source =
          ⟨.error fault, [], context.nextId⟩) ∧
    (∀ program, compile config expr = .ok program → ∀ host context id outcome,
      program.run host context id = outcome ↔
        Evaluates host config context expr id outcome) := by
  refine ⟨?_, ?_, ?_⟩
  · intro fault
    rw [compile_eq_ofExpr low, ← fault?_eq_some_iff, fault?_ofExpr, List.findSome?_eq_some_iff]
  · intro fault grammar source failed fed host context
    have parsed : Engine.parse ⟨config, grammar⟩ source = .error fault := by
      rw [Engine.parse_of_feed fed low, failed]
      rfl
    rw [Engine.evaluate, parsed]
  · intro program compiled host context id outcome
    rw [compile_eq_ofExpr low] at compiled
    exact run_eq_iff_evaluates compiled

/-- A conjunction calls the function on its right although its left side is false, and a faulty
literal keeps the call before it from running. -/
theorem Program.compile_refines_evaluates_call :
    let code : Function := ⟨0, "f", 1, .divideByZero⟩
    let context := Context.empty.define "f" (.function code)
    let called : Expr := .call (.variable "f") [.number "7"]
    Evaluates .standard .default context (.binary .and (.bool false) called) 1
        ⟨.error .divisionByZero, [.called code .undefined [.big 7]], 1⟩ ∧
      Engine.evaluate .standard context
          ⟨.default, .canned [.leaf (.binary .add called (.number "x"))]⟩ "" =
        ⟨.error (.invalidNumeral "x"), [], 1⟩ := by
  intro code context called
  have left := compile_refines_evaluates .default (.binary .and (.bool false) called) (by decide)
  have right := compile_refines_evaluates .default (.binary .add called (.number "x")) (by decide)
  have compiled : compile .default (.binary .and (.bool false) called) =
      .ok (.binary .and (.literal (.bool false))
        (.call (.variable "f" .undefined) [.literal (.big 7)])) := by cbv
  have failed : compile .default (.binary .add called (.number "x")) =
      .error (.invalidNumeral "x") := by cbv
  exact ⟨(left.2.2 _ compiled .standard context 1 _).mp rfl,
    right.2.1 _ _ "" failed rfl .standard context⟩

end EtherCalc
