import EtherCalc.Proofs.Host.Scripted
import EtherCalc.Proofs.Semantics.Holding
import EtherCalc.Proofs.Semantics.Limits

/-!
Functions run with the receiver that they were bound to, and with as many arguments as they declare.

Along a course no method turns up that was not there at the beginning or bound before.  So whatever
way a method takes to the place where it is called, through operators, elements, arguments and
results, its receiver is the value that it was read from.
-/

namespace EtherCalc

section

variable {known : Method → Prop} {objects : ObjectHost}

/-- The methods that are known after some deeds. -/
def knowing (known : Method → Prop) (deeds : List Deed) (method : Method) : Prop :=
  known method ∨ ∃ base name, .bound base name method ∈ deeds

/-- The method is bound to what it was read from; a function runs with the receiver of the callee
and with as many arguments as it declares, and a callee that is a method is known. -/
def Deed.Sound (objects : ObjectHost) (known : Method → Prop) : Deed → Prop
  | .bound base name method => method.receiver = base ∧
      ∃ id, (base.property? objects name id).result = .ok (some (.function method.code))
  | .called callee call => callee.Enters call.code call.receiver ∧
      (call.code.arity < 0 ∨ call.code.arity = call.args.length) ∧ callee.MethodsIn known

/-- Every deed is sound, given the methods that were known or bound before it. -/
def Accounted (objects : ObjectHost) (known : Method → Prop) (deeds : List Deed) : Prop :=
  ∀ before deed after, deeds = before ++ deed :: after → deed.Sound objects (knowing known before)

theorem knowing_append {first second : List Deed} :
    knowing (knowing known first) second = knowing known (first ++ second) := by
  funext method
  simp only [knowing, List.mem_append, exists_or, or_assoc]

theorem le_knowing {deeds : List Deed} : known ≤ knowing known deeds :=
  fun _ isKnown => .inl isKnown

@[simp] theorem knowing_nil : knowing known [] = known := by
  funext method
  simp [knowing]

@[simp] theorem knowing_called {callee : Value} {call : Call} :
    knowing known [.called callee call] = known := by
  funext method
  simp [knowing]

theorem Value.Enters.receiver_methodsIn {callee receiver : Value} {code : Function}
    (enters : callee.Enters code receiver) (holds : callee.MethodsIn known) :
    receiver.MethodsIn known := by
  cases enters with
  | function => trivial
  | method => exact holds.2

theorem accounted_nil : Accounted objects known [] := by
  intro before deed after split
  simp at split

theorem accounted_append {first second : List Deed} (accounted : Accounted objects known first)
    (accountedNext : Accounted objects (knowing known first) second) :
    Accounted objects known (first ++ second) := by
  intro before deed after split
  rcases List.append_eq_append_iff.mp split with ⟨middle, rfl, rest⟩ | ⟨middle, rfl, rest⟩
  · have sound := accountedNext middle deed after rest
    rwa [knowing_append] at sound
  · cases middle with
    | nil =>
        have sound := accountedNext [] deed after rest.symm
        rwa [knowing_append, List.append_nil, List.append_nil] at sound
    | cons first others =>
        obtain ⟨rfl, _⟩ := List.cons.inj rest
        exact accounted before deed others rfl

theorem accounted_singleton {deed : Deed} (sound : deed.Sound objects known) :
    Accounted objects known [deed] := by
  intro before other after split
  cases before with
  | nil =>
      obtain ⟨rfl, _⟩ := List.cons.inj split
      rwa [knowing_nil]
  | cons first rest => simp at split

end

section

variable {host : Host} {body : Function → Value → List Value → Script} {given : Method → Prop}

mutual

/-- The functions that ran are those that were called. -/
theorem Script.Does.calls {script : Script} {id : Nat} {deeds : List Deed} {outcome : Outcome Value}
    (does : Script.Does host body script id deeds outcome) (plain : host.toObjectHost.Plain given) :
    outcome.calls = deeds.filterMap Deed.call? := by
  match does with
  | .done => rfl
  | .fresh does => exact does.calls plain
  | .act does doesLater =>
      rw [Outcome.calls_after, List.filterMap_append, doesLater.calls plain, ← does.calls plain]
      rfl

theorem Action.Does.calls {action : Action} {id : Nat} {deeds : List Deed} {outcome : Outcome Value}
    (does : Action.Does host body action id deeds outcome) (plain : host.toObjectHost.Plain given) :
    outcome.calls = deeds.filterMap Deed.call? := by
  match does with
  | .bound found | .property _ found | .failed found => exact Value.property?_calls plain found
  | .missing found =>
      rename_i policy _ _ _ _
      rw [Outcome.calls_after]
      cases policy <;> exact (List.append_nil _).trans (Value.property?_calls plain found)
  | .item => exact Value.readItem_calls plain
  | .called _ _ does =>
      rw [Outcome.calls_after, does.calls plain]
      rfl
  | .refused _ _ => rfl
  | .notCallable _ => rfl

end

mutual

/-- Along the course of a script that uses known methods, every deed is sound. -/
theorem Script.Does.accounted {script : Script} {id : Nat} {deeds : List Deed}
    {outcome : Outcome Value} (does : Script.Does host body script id deeds outcome)
    (plain : host.toObjectHost.Plain given) (honest : Host.Honest given body)
    {known : Method → Prop} (le : given ≤ known) (holds : script.MethodsIn known) :
    Accounted host.toObjectHost known deeds ∧ Yields (knowing known deeds) outcome.result := by
  match does with
  | .done =>
      rw [knowing_nil]
      exact ⟨accounted_nil, holds⟩
  | .fresh does => exact does.accounted plain honest le (holds _)
  | .act does doesLater =>
      obtain ⟨holdsAction, holdsNext⟩ := holds
      obtain ⟨accounted, yields⟩ := does.accounted plain honest le holdsAction
      obtain ⟨accountedLater, yieldsLater⟩ := doesLater.accounted plain honest
        (le.trans le_knowing)
        (holdsNext _ _ le_knowing yields)
      rw [knowing_append] at yieldsLater
      exact ⟨accounted_append accounted accountedLater, yieldsLater⟩

theorem Action.Does.accounted {action : Action} {id : Nat} {deeds : List Deed}
    {outcome : Outcome Value} (does : Action.Does host body action id deeds outcome)
    (plain : host.toObjectHost.Plain given) (honest : Host.Honest given body)
    {known : Method → Prop} (le : given ≤ known) (holds : action.MethodsIn known) :
    Accounted host.toObjectHost known deeds ∧ Yields (knowing known deeds) outcome.result := by
  match does with
  | .bound found =>
      have isBound : ∀ {base name method}, knowing known [.bound base name method] method :=
        .inr ⟨_, _, List.mem_singleton.mpr rfl⟩
      refine ⟨accounted_singleton ⟨rfl, id, by rw [found]⟩, yields_ok ⟨isBound, ?_⟩⟩
      exact Value.MethodsIn.mono le_knowing _ holds
  | .property notFunction found =>
      rw [knowing_nil]
      exact ⟨accounted_nil, yields_ok (Value.property?_methodsIn plain le holds (by rw [found]))⟩
  | .missing found =>
      rename_i policy _ _ _ _
      refine ⟨accounted_nil, ?_⟩
      cases policy with
      | undefined => exact yields_ok trivial
      | error => exact yields_error
  | .failed found => exact ⟨accounted_nil, yields_error⟩
  | .item =>
      rw [knowing_nil]
      exact ⟨accounted_nil, Value.readItem_yields plain le holds.1⟩
  | .called enters accepts does =>
      obtain ⟨holdsCallee, holdsArgs⟩ := holds
      have holdsReceiver := enters.receiver_methodsIn holdsCallee
      obtain ⟨accounted, yields⟩ := does.accounted plain honest le
        (honest known _ _ _ le holdsReceiver holdsArgs)
      rw [← List.singleton_append, ← knowing_append, knowing_called]
      refine ⟨accounted_append (accounted_singleton ⟨enters, accepts, holdsCallee⟩) ?_, yields⟩
      rwa [knowing_called]
  | .refused _ _ => exact ⟨accounted_nil, yields_error⟩
  | .notCallable _ => exact ⟨accounted_nil, yields_error⟩

end

end

namespace Program

section

variable {host : Host} {context : Context} {callee : Program} {args : List Program}
variable {function : Value} {values : List Value} {before later : List Event} {id middle last : Nat}

/-- The callee and the arguments come before the call, and what they did stays whatever it does. -/
theorem run_call (ran : callee.run host context id = ⟨.ok function, before, middle⟩)
    (ranAll : runAll host context args middle = ⟨.ok values, later, last⟩) :
    (Program.call callee args).run host context id =
      (function.call (fun code receiver => host.invoke code receiver values) values last).after
        (before ++ later) := by
  rw [run, Run.bind_ok ran, Run.bind_ok ranAll, Outcome.after_after]

end

/-- Every run of an expression is the course of its script, and its calls are those of the course.
There a function has as many arguments as it declares, and runs with no receiver, or with the one of
a method that was given or that reading the function from that receiver made before.  A call that is
refused adds nothing to what its callee and arguments did; methods that are read, as properties or
elements, stay as they are. -/
theorem calls_accounted (config : Config) (expr : Expr) (program : Program)
    (compiled : compile config expr = .ok program) (host : Host)
    (body : Function → Value → List Value → Script) (given : Method → Prop) (context : Context)
    (scripted : host.Scripted body) (plain : host.toObjectHost.Plain given)
    (honest : Host.Honest given body)
    (holds : ∀ name value, context.get? name = some value → value.MethodsIn given) :
    (∀ id, ∃ deeds,
      Script.Does host body (expr.script config context .done) id deeds
          (program.run host context id) ∧
        (program.run host context id).calls = deeds.filterMap Deed.call? ∧
        Accounted host.toObjectHost given deeds ∧
        Yields (knowing given deeds) (program.run host context id).result) ∧
    (∀ (callee : Program) args id function values before later middle last,
      callee.run host context id = ⟨.ok function, before, middle⟩ →
        runAll host context args middle = ⟨.ok values, later, last⟩ →
          (function.isCallable = false → (Program.call callee args).run host context id =
            ⟨.error (.notCallable function.typeName), before ++ later, last⟩) ∧
          ∀ code receiver, function.Enters code receiver →
            0 ≤ code.arity ∧ code.arity ≠ values.length →
              (Program.call callee args).run host context id =
                ⟨.error (.arityMismatch code.name code.arity.toNat values.length),
                  before ++ later, last⟩) ∧
    (∀ policy (base : Value) name id receiverId receiver code events last,
      base.property? host.toObjectHost name id =
          ⟨.ok (some (.method receiverId receiver code)), events, last⟩ →
        base.readProperty host.toObjectHost policy name id =
          ⟨.ok (.method receiverId receiver code), events, last⟩) ∧
    ∀ arrayId items index id receiverId receiver code,
      Value.elementAt items index = .ok (.method receiverId receiver code) →
        (Value.array arrayId items).readItem host.toObjectHost index id =
          ⟨.ok (.method receiverId receiver code), [], id⟩ := by
  obtain ⟨_, compiled⟩ := compile_eq_ok.mp compiled
  refine ⟨fun id => ?_,
    fun callee args id function values before later middle last ran ranAll => ?_,
    fun policy base name id receiverId receiver code events last found => ?_,
    fun arrayId items index id receiverId receiver code found => ?_⟩
  · obtain ⟨deeds, does⟩ :=
      Script.does_run scripted _ (expr.script config context .done) id (Nat.le_refl _)
    rw [run_eq_script compiled] at does
    have holdsScript : (expr.script config context .done).MethodsIn given :=
      expr.script_methodsIn holds le_rfl fun _ _ _ yields => yields
    obtain ⟨accounted, yields⟩ := does.accounted plain honest le_rfl holdsScript
    exact ⟨deeds, does, does.calls plain, accounted, yields⟩
  · rw [run_call ran ranAll]
    constructor
    · intro notCallable
      have none : ∀ code receiver, ¬ function.Enters code receiver := by
        intro code receiver enters
        rw [Value.isCallable_iff.mpr ⟨code, receiver, enters⟩] at notCallable
        contradiction
      rw [Value.call_of_not_callable none]
      simp [Outcome.after]
    · intro code receiver enters refuses
      have notAccepted : code.accepts values.length = false := by
        rw [Bool.eq_false_iff, Ne, Function.accepts_iff]
        omega
      rw [Value.call_of_refuses enters notAccepted]
      simp [Outcome.after]
  · have plain : ∀ other, Value.method receiverId receiver code ≠ .function other := by
      rintro other ⟨⟩
    exact Value.readProperty_plain plain found
  · rw [Value.readItem, found]
    rfl

/-- A method takes its way through an operator and an argument of a function that calls it. -/
theorem calls_accounted_apply :
    let apply : Function := ⟨0, "apply", -1, .apply⟩
    let code : Function := ⟨1, "f", 1, .this⟩
    let object : Value := .object 2 "T" [("f", .function code)]
    let context := (Context.empty.define "apply" (.function apply)).define "o" object
    let expr : Expr := .call (.variable "apply")
      [.binary .or (.member (.variable "o") "f") (.bool false), .number "7"]
    ∃ program deeds, compile .default expr = .ok program ∧
      (program.run .standard context 3).calls =
        [⟨apply, .undefined, [.method 3 object code, .big 7]⟩, ⟨code, object, [.big 7]⟩] ∧
      (program.run .standard context 3).calls = deeds.filterMap Deed.call? ∧
      Accounted Host.standard.toObjectHost (fun _ => False) deeds := by
  intro apply code object context expr
  let program : Program := .call (.variable "apply" .undefined)
    [.binary .or (.member (.variable "o" .undefined) "f" .undefined) (.literal (.bool false)),
      .literal (.big 7)]
  have compiled : compile .default expr = .ok program := by cbv
  have holds : ∀ name value, context.get? name = some value → value.MethodsIn fun _ => False := by
    intro name value found
    rw [Context.get?_define, Context.get?_define] at found
    split at found
    · obtain rfl := Option.some.inj found
      exact ⟨trivial, trivial⟩
    · split at found
      · obtain rfl := Option.some.inj found
        trivial
      · contradiction
  have runs := calls_accounted .default expr program compiled .standard Host.Standard.script
    (fun _ => False) context Host.Standard.scripted Host.Standard.objects_plain
    Host.Standard.honest holds
  obtain ⟨deeds, _, calls, accounted, _⟩ := runs.1 3
  exact ⟨program, deeds, compiled, rfl, calls, accounted⟩

end Program

end EtherCalc
