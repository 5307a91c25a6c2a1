import EtherCalc.Program.Execution
import EtherCalc.Proofs.Sequence

/-!
What an expression means, read off its tree.

`Evaluates` relates a tree, the first identity not in use and the outcome.  A rule for a tree with
parts needs the outcome of its parts, which `EvaluatesAll` evaluates once each and from left to
right; when one of them fails, its error is the outcome and the parts after it are not evaluated.
A literal that spells no number has no outcome.
-/

namespace EtherCalc

mutual

inductive Evaluates (host : Host) (config : Config) (context : Context) :
    Expr → Nat → Outcome Value → Prop where
  | number {text : String} {value : Int} {id : Nat} (valid : Numeral.read text = .ok value) :
      Evaluates host config context (.number text) id ⟨.ok (.big value), [], id⟩
  | scientific {mantissa exponent : String} {value : Int} {id : Nat}
      (valid : Numeral.scientific config.maxExponent mantissa exponent = .ok value) :
      Evaluates host config context (.scientific mantissa exponent) id ⟨.ok (.big value), [], id⟩
  | string {raw : String} {id : Nat} :
      Evaluates host config context (.string raw) id
        ⟨.ok (.string (Program.unquoted raw)), [], id⟩
  | bool {value : Bool} {id : Nat} :
      Evaluates host config context (.bool value) id ⟨.ok (.bool value), [], id⟩
  /-- The words for booleans are no names, whatever the context binds. -/
  | reserved {name : String} {value : Bool} {id : Nat}
      (word : booleanWord? name = some value) :
      Evaluates host config context (.variable name) id ⟨.ok (.bool value), [], id⟩
  | bound {name : String} {value : Value} {id : Nat} (free : booleanWord? name = none)
      (found : context.get? name = some value) :
      Evaluates host config context (.variable name) id ⟨.ok value, [], id⟩
  | undefined {name : String} {id : Nat} (free : booleanWord? name = none)
      (absent : context.get? name = none) (policy : config.unbound = .undefined) :
      Evaluates host config context (.variable name) id ⟨.ok .undefined, [], id⟩
  | unbound {name : String} {id : Nat} (free : booleanWord? name = none)
      (absent : context.get? name = none) (policy : config.unbound = .error) :
      Evaluates host config context (.variable name) id ⟨.error (.unboundVariable name), [], id⟩
  | amount {quantity : Expr} {unit : Denomination} {value : Value} {events : List Event}
      {id last : Nat}
      (parts : EvaluatesAll host config context [quantity] id ⟨.ok [value], events, last⟩) :
      Evaluates host config context (.amount quantity unit) id
        ⟨Arithmetic.scaled unit value, events, last⟩
  | negate {operand : Expr} {value : Value} {events : List Event} {id last : Nat}
      (parts : EvaluatesAll host config context [operand] id ⟨.ok [value], events, last⟩) :
      Evaluates host config context (.negate operand) id ⟨Arithmetic.negate value, events, last⟩
  | not {operand : Expr} {value : Value} {events : List Event} {id last : Nat}
      (parts : EvaluatesAll host config context [operand] id ⟨.ok [value], events, last⟩) :
      Evaluates host config context (.not operand) id ⟨.ok (.bool !value.isTruthy), events, last⟩
  /-- Both operands come before the operator, also if the first one decides. -/
  | binary {op : Operator} {left right : Expr} {first second : Value} {events : List Event}
      {id last : Nat}
      (parts : EvaluatesAll host config context [left, right] id
        ⟨.ok [first, second], events, last⟩) :
      Evaluates host config context (.binary op left right) id
        ⟨Arithmetic.apply op first second, events, last⟩
  | index {target position : Expr} {base place : Value} {events : List Event} {id last : Nat}
      (parts : EvaluatesAll host config context [target, position] id
        ⟨.ok [base, place], events, last⟩) :
      Evaluates host config context (.index target position) id
        ((base.readItem host.toObjectHost place last).after events)
  | member {target : Expr} {name : String} {base : Value} {events : List Event} {id last : Nat}
      (parts : EvaluatesAll host config context [target] id ⟨.ok [base], events, last⟩) :
      Evaluates host config context (.member target name) id
        ((base.readProperty host.toObjectHost config.unbound name last).after events)
  | call {callee : Expr} {args : List Expr} {function : Value} {values : List Value}
      {events : List Event} {id last : Nat}
      (parts : EvaluatesAll host config context (callee :: args) id
        ⟨.ok (function :: values), events, last⟩) :
      Evaluates host config context (.call callee args) id
        ((function.call (fun code receiver => host.invoke code receiver values) values last).after
          events)
  /-- The first error among the parts is the outcome of the whole. -/
  | stopped {expr : Expr} {error : EvalError} {events : List Event} {id last : Nat}
      (parts : EvaluatesAll host config context expr.children id ⟨.error error, events, last⟩) :
      Evaluates host config context expr id ⟨.error error, events, last⟩

inductive EvaluatesAll (host : Host) (config : Config) (context : Context) :
    List Expr → Nat → Outcome (List Value) → Prop where
  | nil {id : Nat} : EvaluatesAll host config context [] id ⟨.ok [], [], id⟩
  | cons {expr : Expr} {rest : List Expr} {value : Value} {values : List Value}
      {events later : List Event} {id middle last : Nat}
      (first : Evaluates host config context expr id ⟨.ok value, events, middle⟩)
      (others : EvaluatesAll host config context rest middle ⟨.ok values, later, last⟩) :
      EvaluatesAll host config context (expr :: rest) id
        ⟨.ok (value :: values), events ++ later, last⟩
  | first {expr : Expr} {rest : List Expr} {error : EvalError} {events : List Event}
      {id last : Nat}
      (failed : Evaluates host config context expr id ⟨.error error, events, last⟩) :
      EvaluatesAll host config context (expr :: rest) id ⟨.error error, events, last⟩
  | later {expr : Expr} {rest : List Expr} {value : Value} {error : EvalError}
      {events later : List Event} {id middle last : Nat}
      (first : Evaluates host config context expr id ⟨.ok value, events, middle⟩)
      (failed : EvaluatesAll host config context rest middle ⟨.error error, later, last⟩) :
      EvaluatesAll host config context (expr :: rest) id ⟨.error error, events ++ later, last⟩

end

section

variable {host : Host} {config : Config} {context : Context}

mutual

theorem Evaluates.deterministic {expr : Expr} {id : Nat} {outcome : Outcome Value}
    (evaluates : Evaluates host config context expr id outcome) :
    ∀ {other}, Evaluates host config context expr id other → outcome = other := by
  match evaluates with
  | .number valid =>
      intro other again
      cases again with
      | number validAgain =>
          cases valid.symm.trans validAgain
          rfl
      | stopped parts => cases parts
  | .scientific valid =>
      intro other again
      cases again with
      | scientific validAgain =>
          cases valid.symm.trans validAgain
          rfl
      | stopped parts => cases parts
  | .string =>
      intro other again
      cases again with
      | string => rfl
      | stopped parts => cases parts
  | .bool =>
      intro other again
      cases again with
      | bool => rfl
      | stopped parts => cases parts
  | .reserved _ | .bound _ _ | .undefined _ _ _ | .unbound _ _ _ =>
      intro other again
      cases again with
      | stopped parts => cases parts
      | _ => simp_all
  | .amount parts | .negate parts | .not parts | .binary parts | .index parts | .member parts
  | .call parts =>
      intro other again
      cases again with
      | stopped failed => cases parts.deterministic failed
      | _ =>
          rename_i partsAgain
          cases parts.deterministic partsAgain
          rfl
  | .stopped parts =>
      intro other again
      have unique {outcomes} (again : EvaluatesAll host config context expr.children id outcomes) :=
        parts.deterministic again
      cases again with
      | stopped partsAgain =>
          cases unique partsAgain
          rfl
      | amount again | negate again | not again | binary again | index again | member again
      | call again => cases unique again
      | _ => cases parts

theorem EvaluatesAll.deterministic {exprs : List Expr} {id : Nat} {outcome : Outcome (List Value)}
    (evaluates : EvaluatesAll host config context exprs id outcome) :
    ∀ {other}, EvaluatesAll host config context exprs id other → outcome = other := by
  match evaluates with
  | .nil =>
      intro other again
      cases again
      rfl
  | .cons first others =>
      intro other again
      cases again with
      | cons firstAgain othersAgain =>
          cases first.deterministic firstAgain
          cases others.deterministic othersAgain
          rfl
      | first failed => cases first.deterministic failed
      | later firstAgain failed =>
          cases first.deterministic firstAgain
          cases others.deterministic failed
  | .first failed =>
      intro other again
      cases again with
      | cons first others => cases failed.deterministic first
      | first failedAgain =>
          cases failed.deterministic failedAgain
          rfl
      | later first failedAgain => cases failed.deterministic first
  | .later first failed =>
      intro other again
      cases again with
      | cons firstAgain others =>
          cases first.deterministic firstAgain
          cases failed.deterministic others
      | first failedAgain => cases first.deterministic failedAgain
      | later firstAgain failedAgain =>
          cases first.deterministic firstAgain
          cases failed.deterministic failedAgain
          rfl

end

section

variable {expr part : Expr} {rest : List Expr} {first : Run Value} {id : Nat}

/-- A tree with one part evaluates the part and then does what it does with its value. -/
theorem Evaluates.of_one {act : Value → Run Value} (children : expr.children = [part])
    (evaluates : Evaluates host config context part id (first id))
    (acts : ∀ {value events last},
      EvaluatesAll host config context [part] id ⟨.ok [value], events, last⟩ →
        Evaluates host config context expr id ((act value last).after events)) :
    Evaluates host config context expr id ((first >>= act) id) := by
  rcases done : first id with ⟨error | value, events, last⟩ <;> rw [done] at evaluates
  · rw [Run.bind_error done]
    exact .stopped (children ▸ .first evaluates)
  · rw [Run.bind_ok done]
    have parts := EvaluatesAll.cons evaluates .nil
    rw [List.append_nil] at parts
    exact acts parts

theorem EvaluatesAll.singleton (evaluates : Evaluates host config context part id (first id)) :
    EvaluatesAll host config context [part] id ((first id).map fun value => [value]) := by
  rcases done : first id with ⟨error | value, events, last⟩ <;> rw [done] at evaluates
  · exact .first evaluates
  · have parts := EvaluatesAll.cons evaluates .nil
    rwa [List.append_nil] at parts

/-- A tree with several parts evaluates the first one, then the others, and then does what it does
with their values. -/
theorem Evaluates.of_several {α : Type} {tail : Run α} {values : α → List Value}
    {act : Value → α → Run Value} (children : expr.children = part :: rest)
    (evaluatesFirst : Evaluates host config context part id (first id))
    (evaluatesRest : ∀ id, EvaluatesAll host config context rest id ((tail id).map values))
    (acts : ∀ {value others events last},
      EvaluatesAll host config context (part :: rest) id
          ⟨.ok (value :: values others), events, last⟩ →
        Evaluates host config context expr id ((act value others last).after events)) :
    Evaluates host config context expr id
      ((first >>= fun value => tail >>= fun others => act value others) id) := by
  rcases done : first id with ⟨error | value, events, middle⟩ <;> rw [done] at evaluatesFirst
  · rw [Run.bind_error done]
    exact .stopped (children ▸ .first evaluatesFirst)
  · have evaluatesRest := evaluatesRest middle
    rw [Run.bind_ok done]
    rcases doneRest : tail middle with ⟨error | others, later, last⟩ <;>
      rw [doneRest] at evaluatesRest
    · rw [Run.bind_error doneRest]
      exact .stopped (children ▸ .later evaluatesFirst evaluatesRest)
    · rw [Run.bind_ok doneRest, Outcome.after_after]
      exact acts (.cons evaluatesFirst evaluatesRest)

theorem EvaluatesAll.of_cons {tail : Run (List Value)}
    (evaluatesFirst : Evaluates host config context part id (first id))
    (evaluatesRest : ∀ id, EvaluatesAll host config context rest id (tail id)) :
    EvaluatesAll host config context (part :: rest) id
      ((first >>= fun value => tail >>= fun values => pure (value :: values)) id) := by
  rcases done : first id with ⟨error | value, events, middle⟩ <;> rw [done] at evaluatesFirst
  · rw [Run.bind_error done]
    exact .first evaluatesFirst
  · have evaluatesRest := evaluatesRest middle
    rw [Run.bind_ok done]
    rcases doneRest : tail middle with ⟨error | others, later, last⟩ <;>
      rw [doneRest] at evaluatesRest
    · rw [Run.bind_error doneRest]
      exact .later evaluatesFirst evaluatesRest
    · rw [Run.bind_ok doneRest, Outcome.after_after, Run.pure_after]
      exact .cons evaluatesFirst evaluatesRest

end

end

end EtherCalc
