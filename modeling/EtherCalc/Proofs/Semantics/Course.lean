import EtherCalc.Proofs.Semantics.Script
import EtherCalc.Proofs.Value.Methods

/-!
What happens when code runs.

`Does` says what a script does: which reads bind a function, and to what, which calls go through,
and what the functions do that are called.  Where all functions of a host are scripts, every run of
a script is such a course.
-/

namespace EtherCalc

/-- A function that runs. -/
structure Call where
  code : Function
  receiver : Value
  args : List Value

def Event.call? : Event → Option Call
  | .called code receiver args => some ⟨code, receiver, args⟩
  | .read _ _ => none

/-- The functions that ran, in order. -/
def Outcome.calls {α : Type} (outcome : Outcome α) : List Call :=
  outcome.events.filterMap Event.call?

inductive Deed where
  /-- A function was read as a property of `base`, which made the method. -/
  | bound (base : Value) (name : String) (method : Method)
  /-- The value was called, and the function ran. -/
  | called (callee : Value) (call : Call)

def Deed.call? : Deed → Option Call
  | .bound _ _ _ => none
  | .called _ call => some call

/-- Calling the value enters the function with the receiver. -/
inductive Value.Enters : Value → Function → Value → Prop where
  | function {code : Function} : Enters (.function code) code .undefined
  | method {receiverId : Nat} {receiver : Value} {code : Function} :
      Enters (.method receiverId receiver code) code receiver

section

variable (host : Host) (body : Function → Value → List Value → Script)

mutual

/-- From an identity not in use, the script does the deeds and comes to the outcome. -/
inductive Script.Does : Script → Nat → List Deed → Outcome Value → Prop where
  | done {result : Except EvalError Value} {id : Nat} :
      Script.Does (.done result) id [] ⟨result, [], id⟩
  | fresh {next : Nat → Script} {id : Nat} {deeds : List Deed} {outcome : Outcome Value} :
      Script.Does (next id) (id + 1) deeds outcome → Script.Does (.fresh next) id deeds outcome
  | act {action : Action} {next : Except EvalError Value → Script} {id : Nat}
      {deeds later : List Deed} {before outcome : Outcome Value} :
      Action.Does action id deeds before →
        Script.Does (next before.result) before.nextId later outcome →
          Script.Does (.act action next) id (deeds ++ later) (outcome.after before.events)

inductive Action.Does : Action → Nat → List Deed → Outcome Value → Prop where
  /-- A function that is read as a property is bound to what it was read from. -/
  | bound {policy : UnboundPolicy} {base : Value} {name : String} {code : Function}
      {events : List Event} {id last : Nat}
      (found : base.property? host.toObjectHost name id =
        ⟨.ok (some (.function code)), events, last⟩) :
      Action.Does (.property policy base name) id [.bound base name ⟨last, base, code⟩]
        ⟨.ok (.method last base code), events, last + 1⟩
  /-- Any other property is read as it is, also one that is a method. -/
  | property {policy : UnboundPolicy} {base value : Value} {name : String} {events : List Event}
      {id last : Nat} (plain : ∀ code, value ≠ .function code)
      (found : base.property? host.toObjectHost name id = ⟨.ok (some value), events, last⟩) :
      Action.Does (.property policy base name) id [] ⟨.ok value, events, last⟩
  | missing {policy : UnboundPolicy} {base : Value} {name : String} {events : List Event}
      {id last : Nat}
      (found : base.property? host.toObjectHost name id = ⟨.ok none, events, last⟩) :
      Action.Does (.property policy base name) id []
        ((Value.missingProperty policy base name last).after events)
  | failed {policy : UnboundPolicy} {base : Value} {name : String} {error : EvalError}
      {events : List Event} {id last : Nat}
      (found : base.property? host.toObjectHost name id = ⟨.error error, events, last⟩) :
      Action.Does (.property policy base name) id [] ⟨.error error, events, last⟩
  | item {base index : Value} {id : Nat} :
      Action.Does (.item base index) id [] (base.readItem host.toObjectHost index id)
  /-- The function runs, with the receiver that the callee has for it. -/
  | called {callee receiver : Value} {code : Function} {args : List Value} {id : Nat}
      {deeds : List Deed} {outcome : Outcome Value} (enters : callee.Enters code receiver)
      (accepts : code.arity < 0 ∨ code.arity = args.length) :
      Script.Does (body code receiver args) id deeds outcome →
        Action.Does (.call callee args) id (.called callee ⟨code, receiver, args⟩ :: deeds)
          (outcome.after [.called code receiver args])
  | refused {callee receiver : Value} {code : Function} {args : List Value} {id : Nat}
      (enters : callee.Enters code receiver)
      (refuses : 0 ≤ code.arity ∧ code.arity ≠ args.length) :
      Action.Does (.call callee args) id []
        ⟨.error (.arityMismatch code.name code.arity.toNat args.length), [], id⟩
  | notCallable {callee : Value} {args : List Value} {id : Nat}
      (plain : ∀ code receiver, ¬ callee.Enters code receiver) :
      Action.Does (.call callee args) id [] ⟨.error (.notCallable callee.typeName), [], id⟩

end

/-- The functions of the host do what the scripts say. -/
def Host.Scripted : Prop :=
  ∀ code receiver args, host.invoke code receiver args = (body code receiver args).run host

end

section

variable {host : Host} {body : Function → Value → List Value → Script}

theorem Outcome.calls_after {α : Type} {events : List Event} {outcome : Outcome α} :
    (outcome.after events).calls = events.filterMap Event.call? ++ outcome.calls := by
  simp [calls, after]

theorem Function.accepts_iff {code : Function} {count : Nat} :
    code.accepts count = true ↔ code.arity < 0 ∨ code.arity = count := by
  simp [accepts]

theorem Value.isCallable_iff {callee : Value} :
    callee.isCallable = true ↔ ∃ code receiver, callee.Enters code receiver := by
  constructor
  · intro callable
    cases callee with
    | function code => exact ⟨code, _, .function⟩
    | method receiverId receiver code => exact ⟨code, receiver, .method⟩
    | _ => contradiction
  · rintro ⟨code, receiver, enters⟩
    cases enters <;> rfl

namespace Value

variable {objects : ObjectHost} {policy : UnboundPolicy} {base value callee receiver : Value}
variable {name : String} {code : Function} {args : List Value} {events : List Event} {id last : Nat}
variable {run : Function → Value → Run Value}

/-- A function that is read as a property becomes a method of what it was read from. -/
theorem readProperty_function
    (found : base.property? objects name id = ⟨.ok (some (.function code)), events, last⟩) :
    base.readProperty objects policy name id =
      ⟨.ok (.method last base code), events, last + 1⟩ := by
  have bound : base.boundTo (.function code) last =
      ⟨.ok (.method last base code), [], last + 1⟩ := rfl
  rw [readProperty, Run.bind_ok found]
  simp only [bound, Outcome.after, List.append_nil]

/-- Everything else is read as it is. -/
theorem readProperty_plain (plain : ∀ code, value ≠ .function code)
    (found : base.property? objects name id = ⟨.ok (some value), events, last⟩) :
    base.readProperty objects policy name id = ⟨.ok value, events, last⟩ := by
  have bound : base.boundTo value = pure value := by
    cases value with
    | function code => exact absurd rfl (plain code)
    | _ => rfl
  rw [readProperty, Run.bind_ok found]
  simp only [bound, Run.pure_after]

/-- A call that goes through is recorded, and then the function runs. -/
theorem call_of_accepts (enters : callee.Enters code receiver)
    (accepts : code.accepts args.length = true) :
    callee.call run args id = (run code receiver id).after [.called code receiver args] := by
  have entered : call.enter run args code receiver id =
      (run code receiver id).after [.called code receiver args] := by
    unfold call.enter
    rw [if_pos accepts]
    rfl
  cases enters with
  | function => exact entered
  | method => exact entered

theorem call_of_refuses (enters : callee.Enters code receiver)
    (refuses : code.accepts args.length = false) :
    callee.call run args id =
      ⟨.error (.arityMismatch code.name code.arity.toNat args.length), [], id⟩ := by
  have refused : call.enter run args code receiver id =
      ⟨.error (.arityMismatch code.name code.arity.toNat args.length), [], id⟩ := by
    unfold call.enter
    rw [if_neg (by simp [refuses])]
    rfl
  cases enters with
  | function => exact refused
  | method => exact refused

theorem call_of_not_callable (plain : ∀ code receiver, ¬ callee.Enters code receiver) :
    callee.call run args id = ⟨.error (.notCallable callee.typeName), [], id⟩ := by
  cases callee with
  | function code => exact absurd .function (plain code _)
  | method receiverId receiver code => exact absurd .method (plain code receiver)
  | _ => rfl

end Value

/-- An action is done in a course, provided that the function that it calls is, if it runs. -/
theorem Action.does_run (action : Action) (id : Nat)
    (nested : ∀ code receiver args,
      (host.invoke code receiver args id).calls.length < (action.run host id).calls.length →
        ∃ deeds, Script.Does host body (body code receiver args) id deeds
          (host.invoke code receiver args id)) :
    ∃ deeds, Action.Does host body action id deeds (action.run host id) := by
  cases action with
  | item base index => exact ⟨[], .item⟩
  | property policy base name =>
      rw [Action.run]
      rcases found : base.property? host.toObjectHost name id with ⟨error | value, events, last⟩
      · rw [Value.readProperty, Run.bind_error found]
        exact ⟨[], .failed found⟩
      · cases value with
        | none =>
            rw [Value.readProperty, Run.bind_ok found]
            exact ⟨[], .missing found⟩
        | some value =>
            by_cases isFunction : ∃ code, value = .function code
            · obtain ⟨code, rfl⟩ := isFunction
              rw [Value.readProperty_function found]
              exact ⟨_, .bound found⟩
            · have plain : ∀ code, value ≠ .function code :=
                fun code same => isFunction ⟨code, same⟩
              rw [Value.readProperty_plain plain found]
              exact ⟨[], .property plain found⟩
  | call callee args =>
      rw [Action.run] at nested ⊢
      by_cases callable : ∃ code receiver, callee.Enters code receiver
      · obtain ⟨code, receiver, enters⟩ := callable
        cases accepts : code.accepts args.length with
        | true =>
            rw [Value.call_of_accepts enters accepts] at nested ⊢
            have fewer : (host.invoke code receiver args id).calls.length <
                ((host.invoke code receiver args id).after
                  [.called code receiver args]).calls.length := by
              simp [Outcome.calls_after, Event.call?]
            obtain ⟨deeds, does⟩ := nested code receiver args fewer
            exact ⟨_, .called enters (Function.accepts_iff.mp accepts) does⟩
        | false =>
            have refuses : ¬ (code.arity < 0 ∨ code.arity = args.length) := by
              rw [← Function.accepts_iff, accepts]
              exact Bool.false_ne_true
            rw [Value.call_of_refuses enters accepts]
            exact ⟨[], .refused enters (by omega)⟩
      · have plain : ∀ code receiver, ¬ callee.Enters code receiver :=
          fun code receiver enters => callable ⟨code, receiver, enters⟩
        rw [Value.call_of_not_callable plain]
        exact ⟨[], .notCallable plain⟩

/-- Every run of a script is a course, since a function that runs within it runs fewer functions. -/
theorem Script.does_run (scripted : host.Scripted body) (count : Nat) :
    ∀ (script : Script) (id : Nat), (script.run host id).calls.length ≤ count →
      ∃ deeds, Script.Does host body script id deeds (script.run host id) := by
  induction count using Nat.strongRecOn with
  | _ count ihCount =>
      intro script
      induction script with
      | done result =>
          intro id _
          have done : (Script.done result).run host id = ⟨result, [], id⟩ := by
            cases result <;> rfl
          rw [done]
          exact ⟨[], .done⟩
      | fresh next ih =>
          intro id bounded
          obtain ⟨deeds, does⟩ := ih id (id + 1) bounded
          exact ⟨deeds, .fresh does⟩
      | act action next ih =>
          intro id bounded
          rw [Script.run, Outcome.calls_after, List.length_append] at bounded
          have split : (action.run host id).calls.length =
              ((action.run host id).events.filterMap Event.call?).length := rfl
          have nested : ∀ code receiver args,
              (host.invoke code receiver args id).calls.length < (action.run host id).calls.length →
                ∃ deeds, Script.Does host body (body code receiver args) id deeds
                  (host.invoke code receiver args id) := by
            intro code receiver args fewer
            rw [scripted code receiver args] at fewer ⊢
            exact ihCount _ (by omega) _ id (Nat.le_refl _)
          obtain ⟨deeds, does⟩ := Action.does_run action id nested
          obtain ⟨later, doesLater⟩ :=
            ih (action.run host id).result (action.run host id).nextId (by omega)
          exact ⟨deeds ++ later, .act does doesLater⟩

end

end EtherCalc
