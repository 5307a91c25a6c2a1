import EtherCalc.Program.Execution
import EtherCalc.Proofs.Sequence

/-!
Code as what it asks for.

A script asks for new identities, for properties and elements, and for calls, one after the other,
and goes on as the answers are, also where they are errors.  What a host does is a script when it
reaches functions through calls only, and so is what an expression does.
-/

namespace EtherCalc

inductive Action where
  | property (policy : UnboundPolicy) (base : Value) (name : String)
  | item (base index : Value)
  | call (callee : Value) (args : List Value)

def Action.run (host : Host) : Action → Run Value
  | .property policy base name => base.readProperty host.toObjectHost policy name
  | .item base index => base.readItem host.toObjectHost index
  | .call callee args => callee.call (fun code receiver => host.invoke code receiver args) args

inductive Script where
  | done (result : Except EvalError Value)
  | fresh (next : Nat → Script)
  | act (action : Action) (next : Except EvalError Value → Script)

namespace Script

def run (host : Host) : Script → Run Value
  | .done result => Run.ofExcept result
  | .fresh next => fun id => (next id).run host (id + 1)
  | .act action next => fun id =>
      ((next (action.run host id).result).run host (action.run host id).nextId).after
        (action.run host id).events

/-- Goes on with a value; an error is passed on. -/
def onOk {α β : Type} (next : α → Script) (stop : Except EvalError β → Script) :
    Except EvalError α → Script
  | .ok value => next value
  | .error error => stop (.error error)

/-- A run and then the script that its result leads to. -/
def following {α : Type} (host : Host) (first : Run α) (next : Except EvalError α → Script) :
    Run Value := fun id =>
  ((next (first id).result).run host (first id).nextId).after (first id).events

end Script

/-- The value of a name.  The words for booleans are no names. -/
def Context.value (config : Config) (context : Context) (name : String) : Except EvalError Value :=
  match booleanWord? name, context.get? name, config.unbound with
  | some word, _, _ => .ok (.bool word)
  | none, some value, _ => .ok value
  | none, none, .undefined => .ok .undefined
  | none, none, .error => .error (.unboundVariable name)

namespace Expr

mutual

/-- What a tree asks for, and then what is to be done with its value. -/
def script (config : Config) (context : Context) :
    Expr → (Except EvalError Value → Script) → Script
  | .number text, next => next ((Numeral.read text).map .big)
  | .scientific mantissa exponent, next =>
      next ((Numeral.scientific config.maxExponent mantissa exponent).map .big)
  | .string raw, next => next (.ok (.string (Program.unquoted raw)))
  | .bool value, next => next (.ok (.bool value))
  | .variable name, next => next (context.value config name)
  | .amount value unit, next =>
      value.script config context fun value => next (value.bind (Arithmetic.scaled unit))
  | .negate operand, next =>
      operand.script config context fun operand => next (operand.bind Arithmetic.negate)
  | .not operand, next =>
      operand.script config context fun operand =>
        next (operand.map fun operand => .bool !operand.isTruthy)
  | .binary op left right, next =>
      left.script config context <| Script.onOk (fun left =>
        right.script config context fun right => next (right.bind (Arithmetic.apply op left))) next
  | .index target position, next =>
      target.script config context <| Script.onOk (fun target =>
        position.script config context <| Script.onOk (fun position =>
          .act (.item target position) next) next) next
  | .member target name, next =>
      target.script config context <| Script.onOk (fun target =>
        .act (.property config.unbound target name) next) next
  | .call callee args, next =>
      callee.script config context <| Script.onOk (fun callee =>
        scriptAll config context args <| Script.onOk (fun args =>
          .act (.call callee args) next) next) next
termination_by structural expr => expr

def scriptAll (config : Config) (context : Context) :
    List Expr → (Except EvalError (List Value) → Script) → Script
  | [], next => next (.ok [])
  | expr :: rest, next =>
      expr.script config context <| Script.onOk (fun value =>
        scriptAll config context rest fun values => next (values.map (value :: ·))) next
termination_by structural exprs => exprs

end

end Expr

namespace Script

variable {α β : Type} {host : Host} {first : Run α} {act : α → Run β} {id : Nat}
variable {next : Except EvalError β → Script} {stage : Except EvalError α → Script}

theorem following_ofExcept {result : Except EvalError α} {next : Except EvalError α → Script} :
    following host (Run.ofExcept result) next = (next result).run host := by
  funext id
  cases result <;> simp [following, Run.ofExcept, Run.pure, Run.fail, Outcome.after]

theorem following_pure {value : α} {next : Except EvalError α → Script} :
    following host (pure value) next = (next (.ok value)).run host :=
  @following_ofExcept _ _ (.ok value) next

/-- A run of two parts: what the second one leads to is the script after the first one. -/
theorem following_bind
    (goes : ∀ value, (stage (.ok value)).run host = following host (act value) next)
    (stops : ∀ error, stage (.error error) = next (.error error)) :
    following host first stage = following host (first >>= act) next := by
  funext id
  rcases done : first id with ⟨error | value, events, middle⟩
  · simp only [following, Run.bind_error done, done, stops]
  · simp only [following, Run.bind_ok done, done, goes, Outcome.after_after]
    rfl

end Script

namespace Program

open Script

variable {config : Config} {host : Host} {context : Context}

mutual

/-- The script of a tree runs as its program does. -/
theorem run_script : (expr : Expr) → ∀ {program}, ofExpr config expr = .ok program → ∀ next,
    (expr.script config context next).run host = following host (program.run host context) next
  | .number _, _, compiled, next | .scientific _ _, _, compiled, next => by
      obtain ⟨value, valid, same⟩ := bind_eq_ok.mp compiled
      cases same
      rw [Expr.script, valid, run, following_pure]
      rfl
  | .string _, _, compiled, next | .bool _, _, compiled, next => by
      cases compiled
      rw [Expr.script, run, following_pure]
  | .variable name, _, compiled, next => by
      rw [ofExpr] at compiled
      rw [Expr.script, Context.value]
      split at compiled
      · rename_i word
        cases compiled
        rw [word, run, following_pure]
      · rename_i free
        obtain rfl := Except.ok.inj compiled
        rw [free]
        unfold run
        cases found : context.get? name with
        | some value => rw [following_pure]
        | none =>
            cases config.unbound with
            | undefined => rw [following_pure]
            | error => exact (@following_ofExcept _ _ (.error _) _).symm
  | .amount inner _, _, compiled, next | .negate inner, _, compiled, next => by
      obtain ⟨inner', compiledInner, same⟩ := bind_eq_ok.mp compiled
      cases same
      rw [Expr.script, run, run_script inner compiledInner]
      exact following_bind (fun _ => following_ofExcept.symm) fun _ => rfl
  | .not inner, _, compiled, next => by
      obtain ⟨inner', compiledInner, same⟩ := bind_eq_ok.mp compiled
      cases same
      rw [Expr.script, run_not, run_script inner compiledInner]
      exact following_bind (fun _ => following_pure.symm) fun _ => rfl
  | .member target name, _, compiled, next => by
      obtain ⟨target', compiledTarget, same⟩ := bind_eq_ok.mp compiled
      cases same
      rw [Expr.script, run, run_script target compiledTarget]
      exact following_bind (fun _ => rfl) fun _ => rfl
  | .binary op left right, _, compiled, next => by
      obtain ⟨left', compiledLeft, compiledRest⟩ := bind_eq_ok.mp compiled
      obtain ⟨right', compiledRight, same⟩ := bind_eq_ok.mp compiledRest
      cases same
      rw [Expr.script, run, run_script left compiledLeft]
      refine following_bind (fun first => ?_) fun _ => rfl
      rw [onOk, run_script right compiledRight]
      exact following_bind (fun _ => following_ofExcept.symm) fun _ => rfl
  | .index target position, _, compiled, next => by
      obtain ⟨target', compiledTarget, compiledRest⟩ := bind_eq_ok.mp compiled
      obtain ⟨position', compiledPosition, same⟩ := bind_eq_ok.mp compiledRest
      cases same
      rw [Expr.script, run, run_script target compiledTarget]
      refine following_bind (fun base => ?_) fun _ => rfl
      rw [onOk, run_script position compiledPosition]
      exact following_bind (fun _ => rfl) fun _ => rfl
  | .call callee args, _, compiled, next => by
      obtain ⟨callee', compiledCallee, compiledRest⟩ := bind_eq_ok.mp compiled
      obtain ⟨args', compiledArgs, same⟩ := bind_eq_ok.mp compiledRest
      cases same
      rw [Expr.script, run, run_script callee compiledCallee]
      refine following_bind (fun function => ?_) fun _ => rfl
      rw [onOk, run_scriptAll args compiledArgs]
      exact following_bind (fun _ => rfl) fun _ => rfl

theorem run_scriptAll : (exprs : List Expr) → ∀ {programs}, ofExprs config exprs = .ok programs →
    ∀ next, (Expr.scriptAll config context exprs next).run host =
      following host (runAll host context programs) next
  | [], _, compiled, next => by
      cases compiled
      rw [Expr.scriptAll, runAll, following_pure]
  | expr :: rest, _, compiled, next => by
      obtain ⟨program, compiledFirst, compiledRest⟩ := bind_eq_ok.mp compiled
      obtain ⟨programs, compiledOthers, same⟩ := bind_eq_ok.mp compiledRest
      cases same
      rw [Expr.scriptAll, runAll, run_script expr compiledFirst]
      refine following_bind (fun value => ?_) fun _ => rfl
      rw [onOk, run_scriptAll rest compiledOthers]
      exact following_bind (fun _ => following_pure.symm) fun _ => rfl

end

/-- A program asks for what its tree asks for. -/
theorem run_eq_script {expr : Expr} {program : Program}
    (compiled : ofExpr config expr = .ok program) :
    (expr.script config context .done).run host = program.run host context := by
  funext id
  rw [run_script expr compiled]
  exact Run.ofExcept_after

end Program

end EtherCalc
