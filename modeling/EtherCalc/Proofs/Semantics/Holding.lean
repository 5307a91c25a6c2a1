import EtherCalc.Proofs.Semantics.Course

namespace EtherCalc

/-- The code behind host objects calls nothing, and the methods that it has are given. -/
structure ObjectHost.Plain (given : Method → Prop) (objects : ObjectHost) : Prop where
  property : ∀ resource name id, (objects.property resource name id).calls = [] ∧
    ∀ value, (objects.property resource name id).result = .ok (some value) → value.MethodsIn given
  item : ∀ resource position id, (objects.item resource position id).calls = [] ∧
    Yields given (objects.item resource position id).result

def Action.MethodsIn (known : Method → Prop) : Action → Prop
  | .property _ base _ => base.MethodsIn known
  | .item base index => base.MethodsIn known ∧ index.MethodsIn known
  | .call callee args => callee.MethodsIn known ∧ Value.MethodsInAll known args

/-- The script uses methods that are known, or that come with the answers. -/
def Script.MethodsIn (known : Method → Prop) : Script → Prop
  | .done result => Yields known result
  | .fresh next => ∀ id, (next id).MethodsIn known
  | .act action next => action.MethodsIn known ∧
      ∀ wider result, known ≤ wider → Yields wider result →
        (next result).MethodsIn wider

/-- The functions of the host use methods that are given, or that they are called with. -/
def Host.Honest (given : Method → Prop) (body : Function → Value → List Value → Script) : Prop :=
  ∀ known code receiver args, given ≤ known → receiver.MethodsIn known →
    Value.MethodsInAll known args → (body code receiver args).MethodsIn known

section

variable {given known : Method → Prop} {objects : ObjectHost} {base index : Value}
variable {name : String} {id : Nat}

namespace Value

theorem property?_calls (plain : objects.Plain given) {outcome : Outcome (Option Value)}
    (found : base.property? objects name id = outcome) : outcome.calls = [] := by
  subst found
  cases base with
  | host hostId resource =>
      have read : (Value.host hostId resource).property? objects name id =
          (objects.property resource name id).after [.read resource name] := rfl
      rw [read, Outcome.calls_after, (plain.property resource name id).1]
      rfl
  | _ => rfl

theorem property?_methodsIn (plain : objects.Plain given) (le : given ≤ known)
    (holds : base.MethodsIn known) {value : Value}
    (found : (base.property? objects name id).result = .ok (some value)) :
    value.MethodsIn known := by
  have length_methodsIn {length : Int}
      (found : (if name = "length" then some (Integer.toValue length) else none) = some value) :
      value.MethodsIn known := by
    split at found
    · obtain rfl := Option.some.inj found
      exact Integer.toValue_methodsIn
    · contradiction
  cases base with
  | host hostId resource => exact ((plain.property resource name id).2 value found).mono le
  | object objectId typeName fields => exact MethodsInFields.of_find? holds (Except.ok.inj found)
  | array arrayId items => exact length_methodsIn (Except.ok.inj found)
  | string text => exact length_methodsIn (Except.ok.inj found)
  | function | method => cases Except.ok.inj found
  | _ => cases found

theorem elementAt_mem {α : Type} {items : List α} {item : α}
    (found : elementAt items index = .ok item) : item ∈ items := by
  unfold elementAt at found
  split at found
  · contradiction
  · split at found
    · rename_i position _ _ inside
      obtain rfl := Except.ok.inj found
      split at inside
      · exact List.mem_of_getElem? inside
      · contradiction
    · contradiction

theorem readItem_host {hostId : Nat} {resource : HostObject} :
    (Value.host hostId resource).readItem objects index id =
      match hostPosition index with
      | .error error => ⟨.error error, [], id⟩
      | .ok position => objects.item resource position id := by
  have read : (Value.host hostId resource).readItem objects index =
      Run.ofExcept (hostPosition index) >>= objects.item resource := rfl
  rw [read]
  cases hostPosition index with
  | error error => rfl
  | ok position =>
      have known : Run.ofExcept (.ok position) id = ⟨.ok position, [], id⟩ := rfl
      rw [Run.bind_ok known]
      simp [Outcome.after]

theorem readItem_calls (plain : objects.Plain given) :
    (base.readItem objects index id).calls = [] := by
  have ofExcept {result : Except EvalError Value} : (Run.ofExcept result id).calls = [] := by
    cases result <;> rfl
  cases base with
  | array arrayId items => exact ofExcept
  | string text => exact ofExcept
  | host hostId resource =>
      rw [readItem_host]
      split
      · rfl
      · exact (plain.item _ _ _).1
  | _ => rfl

theorem readItem_yields (plain : objects.Plain given) (le : given ≤ known)
    (holds : base.MethodsIn known) : Yields known (base.readItem objects index id).result := by
  have ofExcept {result : Except EvalError Value} (yields : Yields known result) :
      Yields known (Run.ofExcept result id).result := by
    cases result <;> exact yields
  cases base with
  | array arrayId items =>
      exact ofExcept fun value found => methodsInAll_iff.mp holds value (elementAt_mem found)
  | string text => exact ofExcept (yields_map fun _ => trivial)
  | host hostId resource =>
      rw [readItem_host]
      split
      · exact yields_error
      · exact (plain.item _ _ _).2.mono le
  | _ => exact yields_error

end Value

end

/-- Whatever is known by then, on a result that holds known methods the script goes on with such. -/
def Continues {α : Type} (holds : (Method → Prop) → α → Prop) (known : Method → Prop)
    (next : Except EvalError α → Script) : Prop :=
  ∀ wider result, known ≤ wider →
    (∀ value, result = .ok value → holds wider value) → (next result).MethodsIn wider

section

variable {α β : Type} {holds : (Method → Prop) → α → Prop} {holdsNext : (Method → Prop) → β → Prop}
variable {given known wider : Method → Prop} {config : Config} {context : Context}

theorem Continues.mono {next : Except EvalError α → Script} (continues : Continues holds known next)
    (le : known ≤ wider) : Continues holds wider next :=
  fun widest result leNext => continues widest result (le.trans leNext)

theorem continues_onOk {next : α → Script} {stop : Except EvalError β → Script}
    (goes : ∀ wider value, known ≤ wider → holds wider value →
      (next value).MethodsIn wider) (stops : Continues holdsNext known stop) :
    Continues holds known (Script.onOk next stop) := by
  intro wider result le yields
  cases result with
  | error error => exact stops wider _ le nofun
  | ok value => exact goes wider value le (yields value rfl)

/-- What is made of a result before the script goes on. -/
theorem continues_bind {next : Except EvalError β → Script} {build : α → Except EvalError β}
    (continues : Continues holdsNext known next)
    (builds : ∀ wider value, known ≤ wider → holds wider value →
      ∀ built, build value = .ok built → holdsNext wider built) :
    Continues holds known fun result => next (result.bind build) := by
  intro wider result le yields
  refine continues wider _ le fun built done => ?_
  obtain ⟨value, found, done⟩ := bind_eq_ok.mp done
  exact builds wider value le (yields value found) built done

theorem Context.value_yields {name : String} (le : given ≤ known)
    (holds : ∀ name value, context.get? name = some value → value.MethodsIn given) :
    Yields known (context.value config name) := by
  unfold Context.value
  split
  · exact yields_ok trivial
  · rename_i found
    exact yields_ok ((holds _ _ found).mono le)
  · exact yields_ok trivial
  · exact yields_error

namespace Expr

mutual

/-- The script of a tree uses the methods of the context and of the answers. -/
theorem script_methodsIn
    (holds : ∀ name value, context.get? name = some value → value.MethodsIn given) :
    (expr : Expr) → ∀ {known next}, given ≤ known →
      Continues Value.MethodsIn known next → (expr.script config context next).MethodsIn known
  | .number _, _, _, le, continues | .scientific _ _, _, _, le, continues =>
      continues _ _ le_rfl (yields_map fun _ => trivial)
  | .string _, _, _, le, continues | .bool _, _, _, le, continues =>
      continues _ _ le_rfl (yields_ok trivial)
  | .variable name, _, _, le, continues =>
      continues _ _ le_rfl (Context.value_yields le holds)
  | .amount inner unit, _, _, le, continues =>
      script_methodsIn holds inner le
        (continues_bind continues fun _ _ _ _ => Arithmetic.scaled_yields)
  | .negate inner, _, _, le, continues =>
      script_methodsIn holds inner le
        (continues_bind continues fun _ _ _ _ => Arithmetic.negate_yields)
  | .not inner, _, _, le, continues => by
      refine script_methodsIn holds inner le fun wider result leNext _ => ?_
      exact continues wider _ leNext (yields_map fun _ => trivial)
  | .member target name, _, _, le, continues => by
      refine script_methodsIn holds target le
        (continues_onOk (fun wider base leNext holdsBase => ?_) continues)
      exact ⟨holdsBase, continues.mono leNext⟩
  | .binary op left right, _, _, le, continues => by
      refine script_methodsIn holds left le
        (continues_onOk (fun wider first leNext holdsFirst => ?_) continues)
      refine script_methodsIn holds right (le.trans leNext)
        (continues_bind (continues.mono leNext) fun _ second leLast holdsSecond => ?_)
      exact Arithmetic.apply_yields (holdsFirst.mono leLast) holdsSecond
  | .index target position, _, _, le, continues => by
      refine script_methodsIn holds target le
        (continues_onOk (fun wider base leNext holdsBase => ?_) continues)
      refine script_methodsIn holds position (le.trans leNext)
        (continues_onOk (fun _ place leLast holdsPlace => ?_) (continues.mono leNext))
      exact ⟨⟨holdsBase.mono leLast, holdsPlace⟩, (continues.mono leNext).mono leLast⟩
  | .call callee args, _, _, le, continues => by
      refine script_methodsIn holds callee le
        (continues_onOk (fun wider function leNext holdsFunction => ?_) continues)
      refine scriptAll_methodsIn holds args (le.trans leNext)
        (continues_onOk (fun _ values leLast holdsValues => ?_) (continues.mono leNext))
      exact ⟨⟨holdsFunction.mono leLast, holdsValues⟩, (continues.mono leNext).mono leLast⟩

theorem scriptAll_methodsIn
    (holds : ∀ name value, context.get? name = some value → value.MethodsIn given) :
    (exprs : List Expr) → ∀ {known next}, given ≤ known →
      Continues Value.MethodsInAll known next →
        (scriptAll config context exprs next).MethodsIn known
  | [], _, _, le, continues => by
      refine continues _ _ le_rfl ?_
      rintro _ ⟨⟩
      trivial
  | expr :: rest, _, _, le, continues => by
      refine script_methodsIn holds expr le
        (continues_onOk (fun wider value leNext holdsValue => ?_) continues)
      refine scriptAll_methodsIn holds rest (le.trans leNext)
        fun widest result leLast yields => ?_
      refine continues.mono leNext widest _ leLast fun values done => ?_
      obtain ⟨others, found, rfl⟩ := map_eq_ok.mp done
      exact ⟨holdsValue.mono leLast, yields others found⟩

end

end Expr

end

end EtherCalc
