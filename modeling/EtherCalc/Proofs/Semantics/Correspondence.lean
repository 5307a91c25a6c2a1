import EtherCalc.Program.Execution
import EtherCalc.Proofs.Expr.Variables
import EtherCalc.Proofs.Sequence
import EtherCalc.Proofs.Value.Correspondence
import Mathlib.Data.List.Forall2

namespace EtherCalc

inductive Event.Corresponds (matching : Matching) : Event → Event → Prop where
  | called {code code' : Function} {receiver receiver' : Value} {args args' : List Value} :
      code.Corresponds matching code' → receiver.Corresponds matching receiver' →
        Value.CorrespondsAll matching args args' →
          Corresponds matching (.called code receiver args) (.called code' receiver' args')
  | read {object : HostObject} {property : String} :
      Corresponds matching (.read object property) (.read object property)

/-- The results are related, the events correspond one by one, and the matching has the identities
in use at the end. -/
structure Outcome.Corresponds {α : Type} (related : Matching → α → α → Prop) (matching : Matching)
    (outcome outcome' : Outcome α) : Prop where
  result : Related (related matching) outcome.result outcome'.result
  events : List.Forall₂ (Event.Corresponds matching) outcome.events outcome'.events
  next : outcome.nextId = matching.next
  next' : outcome'.nextId = matching.next'

/-- From the matching at the beginning there is a step to one in which the outcomes correspond. -/
def Run.Corresponds {α : Type} (step : Matching → Matching → Prop)
    (related : Matching → α → α → Prop) (matching : Matching) (run run' : Run α) : Prop :=
  ∃ later, step matching later ∧
    Outcome.Corresponds related later (run matching.next) (run' matching.next')

/-- A step of the one kind followed by one of the other is a step of the third. -/
structure Matching.Composes (first second both : Matching → Matching → Prop) : Prop where
  keeps : ∀ {later last}, second later last → later.Extends last
  refl : ∀ {later}, second later later
  trans : ∀ {matching later last}, first matching later → second later last → both matching last

section

variable {α β : Type} {matching later : Matching} {event event' : Event}
variable {related : Matching → α → α → Prop} {related' : Matching → β → β → Prop}
variable {run run' : Run α} {next next' : α → Run β} {value value' : α} {error : EvalError}
variable {first second both : Matching → Matching → Prop}

theorem Matching.grows_composes : Composes Grows Grows Grows :=
  ⟨fun grows => grows.keeps, .refl, .trans⟩

theorem Event.Corresponds.mono (corresponds : event.Corresponds matching event')
    (extends_ : matching.Extends later) : event.Corresponds later event' := by
  cases corresponds with
  | called code receiver args =>
      exact .called (code.mono extends_) (receiver.mono extends_) (args.mono extends_)
  | read => exact .read

namespace Run

theorem corresponds_pure (values : related matching value value') :
    Corresponds Matching.Grows related matching (Pure.pure value) (Pure.pure value') :=
  ⟨matching, .refl, .ok values, .nil, rfl, rfl⟩

theorem corresponds_fail : Corresponds Matching.Grows related matching (fail error) (fail error) :=
  ⟨matching, .refl, .error, .nil, rfl, rfl⟩

theorem corresponds_ofExcept {result result' : Except EvalError α}
    (results : Related (related matching) result result') :
    Corresponds Matching.Grows related matching (ofExcept result) (ofExcept result') := by
  cases results with
  | error => exact corresponds_fail
  | ok values => exact corresponds_pure values

theorem corresponds_record (events : event.Corresponds matching event') :
    Corresponds Matching.Grows (fun _ => Eq) matching (record event) (record event') :=
  ⟨matching, .refl, .ok rfl, .cons events .nil, rfl, rfl⟩

/-- New identities are paired with each other. -/
theorem corresponds_freshId : Corresponds Matching.Grows Matching.Pairs matching freshId freshId :=
  ⟨matching.withFresh, Matching.grows_withFresh, .ok (.inr ⟨rfl, rfl⟩), .nil, rfl, rfl⟩

theorem Corresponds.bind (composes : Matching.Composes first second both)
    (corresponds : Corresponds first related matching run run')
    (correspondsNext : ∀ {later value value'}, first matching later →
      related later value value' → Corresponds second related' later (next value) (next' value')) :
    Corresponds both related' matching (run >>= next) (run' >>= next') := by
  obtain ⟨later, stepped, result, events, ends, ends'⟩ := corresponds
  rcases done : run matching.next with ⟨value, before, middle⟩
  rcases done' : run' matching.next' with ⟨value', before', middle'⟩
  rw [done, done'] at result events
  rw [done] at ends
  rw [done'] at ends'
  subst ends ends'
  cases result with
  | error =>
      refine ⟨later, composes.trans stepped composes.refl, ?_⟩
      rw [bind_error done, bind_error done']
      exact ⟨.error, events, rfl, rfl⟩
  | ok values =>
      obtain ⟨last, steppedOn, resultNext, eventsNext, endsNext, endsNext'⟩ :=
        correspondsNext stepped values
      refine ⟨last, composes.trans stepped steppedOn, ?_⟩
      rw [bind_ok done, bind_ok done']
      have kept := events.imp fun event event' corresponds =>
        corresponds.mono (composes.keeps steppedOn)
      exact ⟨resultNext, List.rel_append kept eventsNext, endsNext, endsNext'⟩

/-- Two runs with pairs new on both sides, one after the other. -/
theorem Corresponds.andThen (corresponds : Corresponds Matching.Grows related matching run run')
    (correspondsNext : ∀ {later value value'}, matching.Grows later → related later value value' →
      Corresponds Matching.Grows related' later (next value) (next' value')) :
    Corresponds Matching.Grows related' matching (run >>= next) (run' >>= next') :=
  corresponds.bind Matching.grows_composes correspondsNext

end Run

end

/-- The code behind host objects does not depend on what the identities are, those below the limit
apart, which it may have of its own.  On both sides it makes values that correspond. -/
structure ObjectHost.Uniform (limit : Nat) (objects : ObjectHost) : Prop where
  property : ∀ {matching}, matching.Fixes limit → ∀ resource name,
    Run.Corresponds Matching.Grows (fun later => Option.Rel (Value.Corresponds later)) matching
      (objects.property resource name) (objects.property resource name)
  item : ∀ {matching}, matching.Fixes limit → ∀ resource position,
    Run.Corresponds Matching.Grows Value.Corresponds matching
      (objects.item resource position) (objects.item resource position)

/-- Functions too do the same on corresponding values. -/
structure Host.Uniform (limit : Nat) (host : Host) : Prop where
  objects : host.toObjectHost.Uniform limit
  invoke : ∀ {matching}, matching.Fixes limit → ∀ {code code' receiver receiver' args args'},
    Function.Corresponds matching code code' → Value.Corresponds matching receiver receiver' →
      Value.CorrespondsAll matching args args' →
        Run.Corresponds Matching.Grows Value.Corresponds matching
          (host.invoke code receiver args) (host.invoke code' receiver' args')

namespace Value

variable {matching : Matching} {objects : ObjectHost} {limit : Nat} {policy : UnboundPolicy}
variable {name : String} {base base' index index' : Value} {args args' : List Value}

theorem length_corresponds {length : Int} : Option.Rel (Corresponds matching)
    (if name = "length" then some (Integer.toValue length) else none)
    (if name = "length" then some (Integer.toValue length) else none) := by
  split
  · exact .some Integer.toValue_corresponds
  · exact .none

theorem property?_corresponds (uniform : objects.Uniform limit) (fixes : matching.Fixes limit)
    (corresponds : Corresponds matching base base') :
    Run.Corresponds Matching.Grows (fun later => Option.Rel (Corresponds later)) matching
      (base.property? objects name) (base'.property? objects name) := by
  cases corresponds with
  | object _ fields => exact Run.corresponds_pure fields.find?
  | host =>
      refine (Run.corresponds_record .read).andThen fun grows _ => ?_
      exact uniform.property (fixes.mono grows.keeps) _ _
  | array _ items =>
      simp only [property?, items.length]
      exact Run.corresponds_pure length_corresponds
  | string => exact Run.corresponds_pure length_corresponds
  | function | method => exact Run.corresponds_pure .none
  | _ => exact Run.corresponds_fail

theorem boundTo_corresponds {found found' : Value} (corresponds : Corresponds matching base base')
    (correspondsFound : Corresponds matching found found') :
    Run.Corresponds Matching.Grows Corresponds matching
      (boundTo base found) (boundTo base' found') := by
  cases correspondsFound with
  | function code =>
      refine Run.corresponds_freshId.andThen fun grows pair => ?_
      exact Run.corresponds_pure
        (.method pair (corresponds.mono grows.keeps) (code.mono grows.keeps))
  | undefined => exact Run.corresponds_pure .undefined
  | bool => exact Run.corresponds_pure .bool
  | int => exact Run.corresponds_pure .int
  | big => exact Run.corresponds_pure .big
  | string => exact Run.corresponds_pure .string
  | array pair items => exact Run.corresponds_pure (.array pair items)
  | object pair fields => exact Run.corresponds_pure (.object pair fields)
  | host pair => exact Run.corresponds_pure (.host pair)
  | method pair receiver code => exact Run.corresponds_pure (.method pair receiver code)

theorem readProperty_corresponds (uniform : objects.Uniform limit) (fixes : matching.Fixes limit)
    (corresponds : Corresponds matching base base') :
    Run.Corresponds Matching.Grows Corresponds matching
      (base.readProperty objects policy name) (base'.readProperty objects policy name) := by
  refine (property?_corresponds uniform fixes corresponds).andThen fun grows found => ?_
  have later := corresponds.mono grows.keeps
  cases found with
  | some found => exact boundTo_corresponds later found
  | none =>
      cases policy with
      | undefined => exact Run.corresponds_pure .undefined
      | error =>
          simp only [missingProperty, later.typeName]
          exact Run.corresponds_fail

theorem elementAt_related {α : Type} {related : α → α → Prop} {items items' : List α}
    (length : items'.length = items.length)
    (found : ∀ position : Nat, Option.Rel related items[position]? items'[position]?)
    (corresponds : Corresponds matching index index') :
    Related related (elementAt items index) (elementAt items' index') := by
  rw [elementAt, elementAt, corresponds.toInteger, length]
  cases index.toInteger with
  | error => exact .error
  | ok position =>
      by_cases inside : 0 ≤ position
      · simp only [if_pos inside]
        have element := found position.toNat
        revert element
        generalize items[position.toNat]? = first
        generalize items'[position.toNat]? = second
        intro element
        cases element with
        | some element => exact .ok element
        | none => exact .error
      · simp only [if_neg inside]
        exact .error

theorem readItem_corresponds (uniform : objects.Uniform limit) (fixes : matching.Fixes limit)
    (corresponds : Corresponds matching base base')
    (correspondsIndex : Corresponds matching index index') :
    Run.Corresponds Matching.Grows Corresponds matching
      (base.readItem objects index) (base'.readItem objects index') := by
  cases corresponds with
  | array _ items =>
      exact Run.corresponds_ofExcept
        (elementAt_related items.length (fun _ => items.getElem?) correspondsIndex)
  | string =>
      have element (position : Nat) (text : String) :
          Option.Rel Eq text.toList[position]? text.toList[position]? := by
        cases text.toList[position]? with
        | some c => exact .some rfl
        | none => exact .none
      refine Run.corresponds_ofExcept
        ((elementAt_related rfl (element · _) correspondsIndex).map fun c c' same => ?_)
      subst same
      exact .string
  | host =>
      have position : hostPosition index' = hostPosition index := by
        rw [hostPosition, hostPosition, correspondsIndex.toInteger]
      unfold readItem
      rw [position]
      have positions := @Run.corresponds_ofExcept _ matching (fun _ => Eq) _ _
        (@related_eq _ (hostPosition index))
      refine positions.andThen fun grows same => ?_
      subst same
      exact uniform.item (fixes.mono grows.keeps) _ _
  | _ =>
      simp only [readItem]
      exact Run.corresponds_fail

theorem call_corresponds {body body' : Function → Value → Run Value}
    (uniform : ∀ {later code code' receiver receiver'}, matching.Grows later →
      Function.Corresponds later code code' → Corresponds later receiver receiver' →
        Run.Corresponds Matching.Grows Corresponds later
          (body code receiver) (body' code' receiver'))
    (correspondsArgs : CorrespondsAll matching args args')
    (corresponds : Corresponds matching base base') :
    Run.Corresponds Matching.Grows Corresponds matching
      (base.call body args) (base'.call body' args') := by
  have enters {code code' receiver receiver'}
      (correspondsCode : Function.Corresponds matching code code')
      (correspondsReceiver : Corresponds matching receiver receiver') :
      Run.Corresponds Matching.Grows Corresponds matching
        (call.enter body args code receiver) (call.enter body' args' code' receiver') := by
    have accepts : code'.accepts args'.length = code.accepts args.length := by
      rw [Function.accepts, Function.accepts, correspondsCode.arity, correspondsArgs.length]
    unfold call.enter
    rw [accepts]
    split
    · refine (Run.corresponds_record
        (.called correspondsCode correspondsReceiver correspondsArgs)).andThen fun grows _ => ?_
      exact uniform grows (correspondsCode.mono grows.keeps) (correspondsReceiver.mono grows.keeps)
    · rw [correspondsCode.name, correspondsCode.arity, correspondsArgs.length]
      exact Run.corresponds_fail
  cases corresponds with
  | function code => exact enters code .undefined
  | method _ receiver code => exact enters code receiver
  | _ => exact Run.corresponds_fail

end Value

/-- Calling corresponding values with corresponding arguments. -/
theorem Host.Uniform.call {host : Host} {limit : Nat} {matching : Matching} {callee callee' : Value}
    {args args' : List Value} (uniform : host.Uniform limit) (fixes : matching.Fixes limit)
    (values : Value.CorrespondsAll matching args args')
    (callees : Value.Corresponds matching callee callee') :
    Run.Corresponds Matching.Grows Value.Corresponds matching
      (callee.call (fun code receiver => host.invoke code receiver args) args)
      (callee'.call (fun code receiver => host.invoke code receiver args') args') :=
  Value.call_corresponds (fun grows code receiver =>
    uniform.invoke (fixes.mono grows.keeps) code receiver (values.mono grows.keeps)) values callees

/-- The contexts leave each of the names unbound, or bind it to corresponding values. -/
def Context.Agrees (matching : Matching) (names : List String) (context context' : Context) :
    Prop :=
  ∀ name ∈ names, Option.Rel (Value.Corresponds matching) (context.get? name) (context'.get? name)

namespace Context

variable {matching later : Matching} {names others : List String} {name : String} {value : Value}
variable {context context' : Context}

theorem Agrees.mono (agrees : context.Agrees matching names context')
    (extends_ : matching.Extends later) : context.Agrees later names context' := by
  intro name member
  have bindings := agrees name member
  cases found : context.get? name <;> cases found' : context'.get? name <;>
    rw [found, found'] at bindings <;> cases bindings
  · exact .none
  · rename_i values
    exact .some (values.mono extends_)

theorem agrees_append : context.Agrees matching (names ++ others) context' ↔
    context.Agrees matching names context' ∧ context.Agrees matching others context' :=
  List.forall_mem_append

theorem nextId_le_of_find? {fields : List (String × Value)}
    (found : Entries.find? name fields = some value) :
    value.nextId ≤ Value.nextIdFields fields := by
  induction fields with
  | nil => contradiction
  | cons field rest ih =>
      obtain ⟨key, first⟩ := field
      rw [Value.nextIdFields]
      by_cases same : key = name
      · rw [Entries.find?, if_pos same] at found
        obtain rfl := Option.some.inj found
        exact Nat.le_max_left _ _
      · rw [Entries.find?, if_neg same] at found
        exact Nat.le_trans (ih found) (Nat.le_max_right _ _)

theorem nextId_le_of_get? (found : context.get? name = some value) :
    value.nextId ≤ context.nextId :=
  nextId_le_of_find? found

/-- Contexts that bind the names to the same values, with the same identities. -/
theorem agrees_of_fixes (agree : ∀ name ∈ names, context.get? name = context'.get? name)
    (fixes : matching.Fixes (min context.nextId context'.nextId)) :
    context.Agrees matching names context' := by
  intro name member
  rw [← agree name member]
  cases found : context.get? name with
  | none => exact .none
  | some value =>
      have used := nextId_le_of_get? found
      have used' := nextId_le_of_get? ((agree name member).symm.trans found)
      exact .some (Value.corresponds_refl value (fixes.of_le (Nat.le_min.mpr ⟨used, used'⟩)))

end Context

namespace Program

variable {host : Host} {limit : Nat} {config : Config} {context context' : Context}

mutual

/-- A program has corresponding runs in contexts that agree on the variables of its tree. -/
theorem run_corresponds (uniform : host.Uniform limit) : (expr : Expr) → ∀ {program matching},
    ofExpr config expr = .ok program → matching.Fixes limit →
      context.Agrees matching expr.variableNames context' →
      Run.Corresponds Matching.Grows Value.Corresponds matching
        (program.run host context) (program.run host context')
  | .number _, _, _, compiled, _, _ | .scientific _ _, _, _, compiled, _, _ => by
      obtain ⟨value, _, same⟩ := bind_eq_ok.mp compiled
      cases same
      exact Run.corresponds_pure .big
  | .string _, _, _, compiled, _, _ => by
      cases compiled
      exact Run.corresponds_pure .string
  | .bool _, _, _, compiled, _, _ => by
      cases compiled
      exact Run.corresponds_pure .bool
  | .variable name, program, matching, compiled, fixes, agrees => by
      rw [ofExpr] at compiled
      split at compiled
      · cases compiled
        exact Run.corresponds_pure .bool
      · rename_i free
        obtain rfl := Except.ok.inj compiled
        have bindings := agrees name (Expr.mem_variableNames_variable.mpr ⟨rfl, free⟩)
        cases found : context.get? name <;> cases found' : context'.get? name <;>
          rw [found, found'] at bindings <;> cases bindings <;> unfold run <;> rw [found, found']
        · cases config.unbound with
          | undefined => exact Run.corresponds_pure .undefined
          | error => exact Run.corresponds_fail
        · rename_i values
          exact Run.corresponds_pure values
  | .amount inner _, _, _, compiled, fixes, agrees => by
      obtain ⟨inner', compiledInner, same⟩ := bind_eq_ok.mp compiled
      cases same
      rw [run, run]
      exact (run_corresponds uniform inner compiledInner fixes agrees).andThen fun _ values =>
        Run.corresponds_ofExcept (Arithmetic.scaled_corresponds values)
  | .negate inner, _, _, compiled, fixes, agrees => by
      obtain ⟨inner', compiledInner, same⟩ := bind_eq_ok.mp compiled
      cases same
      rw [run, run]
      exact (run_corresponds uniform inner compiledInner fixes agrees).andThen fun _ values =>
        Run.corresponds_ofExcept (Arithmetic.negate_corresponds values)
  | .not inner, _, _, compiled, fixes, agrees => by
      obtain ⟨inner', compiledInner, same⟩ := bind_eq_ok.mp compiled
      cases same
      rw [run_not, run_not]
      refine (run_corresponds uniform inner compiledInner fixes agrees).andThen fun _ values => ?_
      rw [values.isTruthy]
      exact Run.corresponds_pure .bool
  | .member target name, _, _, compiled, fixes, agrees => by
      obtain ⟨target', compiledTarget, same⟩ := bind_eq_ok.mp compiled
      cases same
      rw [run, run]
      have targets := run_corresponds uniform target compiledTarget fixes agrees
      exact targets.andThen fun grows targets =>
        Value.readProperty_corresponds uniform.objects (fixes.mono grows.keeps) targets
  | .binary op left right, _, _, compiled, fixes, agrees => by
      obtain ⟨left', compiledLeft, compiledRest⟩ := bind_eq_ok.mp compiled
      obtain ⟨right', compiledRight, same⟩ := bind_eq_ok.mp compiledRest
      cases same
      obtain ⟨agreesLeft, agreesRight⟩ := Context.agrees_append.mp agrees
      rw [run, run]
      have lefts := run_corresponds uniform left compiledLeft fixes agreesLeft
      refine lefts.andThen fun grows lefts => ?_
      have rights := run_corresponds uniform right compiledRight (fixes.mono grows.keeps)
        (agreesRight.mono grows.keeps)
      refine rights.andThen fun growsOn rights => ?_
      exact Run.corresponds_ofExcept
        (Arithmetic.apply_corresponds (lefts.mono growsOn.keeps) rights)
  | .index target position, _, _, compiled, fixes, agrees => by
      obtain ⟨target', compiledTarget, compiledRest⟩ := bind_eq_ok.mp compiled
      obtain ⟨position', compiledPosition, same⟩ := bind_eq_ok.mp compiledRest
      cases same
      obtain ⟨agreesTarget, agreesPosition⟩ := Context.agrees_append.mp agrees
      rw [run, run]
      have targets := run_corresponds uniform target compiledTarget fixes agreesTarget
      refine targets.andThen fun grows targets => ?_
      have positions :=
        run_corresponds uniform position compiledPosition (fixes.mono grows.keeps)
          (agreesPosition.mono grows.keeps)
      refine positions.andThen fun growsOn positions => ?_
      exact Value.readItem_corresponds uniform.objects
        (fixes.mono (grows.keeps.trans growsOn.keeps)) (targets.mono growsOn.keeps) positions
  | .call callee args, _, _, compiled, fixes, agrees => by
      obtain ⟨callee', compiledCallee, compiledRest⟩ := bind_eq_ok.mp compiled
      obtain ⟨args', compiledArgs, same⟩ := bind_eq_ok.mp compiledRest
      cases same
      obtain ⟨agreesCallee, agreesArgs⟩ := Context.agrees_append.mp agrees
      rw [run, run]
      have callees := run_corresponds uniform callee compiledCallee fixes agreesCallee
      refine callees.andThen fun grows callees => ?_
      have values := runAll_corresponds uniform args compiledArgs (fixes.mono grows.keeps)
        (agreesArgs.mono grows.keeps)
      refine values.andThen fun growsOn values => ?_
      exact uniform.call (fixes.mono (grows.keeps.trans growsOn.keeps)) values
        (callees.mono growsOn.keeps)

theorem runAll_corresponds (uniform : host.Uniform limit) : (exprs : List Expr) →
    ∀ {programs matching}, ofExprs config exprs = .ok programs → matching.Fixes limit →
      context.Agrees matching (Expr.variableNamesAll exprs) context' →
      Run.Corresponds Matching.Grows Value.CorrespondsAll matching
        (runAll host context programs) (runAll host context' programs)
  | [], _, _, compiled, _, _ => by
      cases compiled
      exact Run.corresponds_pure .nil
  | expr :: rest, _, _, compiled, fixes, agrees => by
      obtain ⟨program, compiledFirst, compiledRest⟩ := bind_eq_ok.mp compiled
      obtain ⟨programs, compiledOthers, same⟩ := bind_eq_ok.mp compiledRest
      cases same
      obtain ⟨agreesFirst, agreesRest⟩ := Context.agrees_append.mp agrees
      rw [runAll, runAll]
      have values := run_corresponds uniform expr compiledFirst fixes agreesFirst
      refine values.andThen fun grows values => ?_
      have others := runAll_corresponds uniform rest compiledOthers (fixes.mono grows.keeps)
        (agreesRest.mono grows.keeps)
      refine others.andThen fun growsOn others => ?_
      exact Run.corresponds_pure (.cons (values.mono growsOn.keeps) others)

end

end Program

end EtherCalc
