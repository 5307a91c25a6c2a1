import EtherCalc.Arithmetic
import EtherCalc.Host
import EtherCalc.Proofs.Sequence

namespace EtherCalc

/-- An error that running a program may end with.  It is none of parsing or compiling, and a name is
unbound only if the predicate allows it. -/
def EvalError.OfRun (unbound : String → Prop) : EvalError → Prop
  | .parse _ | .ambiguous _ | .exponentOverflow _ _ => False
  | .unboundVariable name => unbound name
  | _ => True

def FailsOnly {α : Type} (allowed : EvalError → Prop) (result : Except EvalError α) : Prop :=
  ∀ error, result = .error error → allowed error

def Run.FailsOnly {α : Type} (allowed : EvalError → Prop) (run : Run α) : Prop :=
  ∀ id, EtherCalc.FailsOnly allowed (run id).result

/-- The code of the host ends with none of the errors that belong to other phases. -/
structure Host.KeepsPhase (host : Host) : Prop where
  property : ∀ resource name, (host.property resource name).FailsOnly (·.OfRun fun _ => False)
  item : ∀ resource position, (host.item resource position).FailsOnly (·.OfRun fun _ => False)
  invoke : ∀ code receiver args,
    (host.invoke code receiver args).FailsOnly (·.OfRun fun _ => False)

section

variable {α β : Type} {allowed wider : EvalError → Prop} {error : EvalError} {value : α}
variable {result : Except EvalError α} {first : Run α} {next : α → Run β} {build : α → β}

theorem failsOnly_ok : FailsOnly allowed (.ok value : Except EvalError α) :=
  nofun

theorem failsOnly_error (isAllowed : allowed error) :
    FailsOnly allowed (.error error : Except EvalError α) := by
  rintro _ ⟨⟩
  exact isAllowed

theorem FailsOnly.map (fails : FailsOnly allowed result) : FailsOnly allowed (result.map build) := by
  cases result with
  | error error => exact failsOnly_error (fails error rfl)
  | ok value => exact failsOnly_ok

theorem FailsOnly.mono (fails : FailsOnly allowed result) (le : ∀ error, allowed error → wider error) :
    FailsOnly wider result :=
  fun error failed => le error (fails error failed)

namespace Run

theorem failsOnly_pure : (Pure.pure value : Run α).FailsOnly allowed :=
  fun _ => failsOnly_ok

theorem failsOnly_fail (isAllowed : allowed error) : (fail error : Run α).FailsOnly allowed :=
  fun _ => failsOnly_error isAllowed

theorem failsOnly_record {event : Event} : (record event).FailsOnly allowed :=
  fun _ => failsOnly_ok

theorem failsOnly_freshId : freshId.FailsOnly allowed :=
  fun _ => failsOnly_ok

theorem failsOnly_ofExcept (fails : EtherCalc.FailsOnly allowed result) :
    (ofExcept result).FailsOnly allowed := by
  cases result with
  | error error => exact failsOnly_fail (fails error rfl)
  | ok value => exact failsOnly_pure

theorem FailsOnly.bind (fails : first.FailsOnly allowed)
    (failsNext : ∀ value, (next value).FailsOnly allowed) : (first >>= next).FailsOnly allowed := by
  intro id
  rcases done : first id with ⟨error | value, events, middle⟩
  · have isAllowed : allowed error := fails id error (by rw [done])
    rw [bind_error done]
    exact failsOnly_error isAllowed
  · rw [bind_ok done]
    exact failsNext value middle

end Run

end

theorem EvalError.OfRun.mono {unbound wider : String → Prop} (le : ∀ name, unbound name → wider name) :
    ∀ error : EvalError, error.OfRun unbound → error.OfRun wider := by
  intro error isOfRun
  cases error with
  | unboundVariable name => exact le name isOfRun
  | _ => exact isOfRun

section

variable {unbound : String → Prop} {left right value index base : Value} {name : String}

theorem Numeral.read_failsOnly {text : String} : FailsOnly (·.OfRun unbound) (read text) := by
  unfold read
  split
  · exact failsOnly_ok
  · exact failsOnly_error trivial

theorem Value.toInteger_failsOnly : FailsOnly (·.OfRun unbound) value.toInteger := by
  cases value with
  | big | int => exact failsOnly_ok
  | string => exact Numeral.read_failsOnly
  | _ => exact failsOnly_error trivial

namespace Arithmetic

variable {symbol : String} {op : Operator} {holds : Ordering → Bool} {unit : Denomination}

theorem integers_failsOnly : FailsOnly (·.OfRun unbound) (integers left right) := by
  unfold integers
  split
  · rename_i failed
    exact failsOnly_error (Value.toInteger_failsOnly _ failed)
  · split
    · rename_i failed
      exact failsOnly_error (Value.toInteger_failsOnly _ failed)
    · exact failsOnly_ok

theorem unify_failsOnly : FailsOnly (·.OfRun unbound) (unify left right) := by
  unfold unify
  split
  · split
    · rename_i failed
      exact failsOnly_error (integers_failsOnly _ failed)
    · exact failsOnly_ok
  · exact failsOnly_ok

theorem add_failsOnly : FailsOnly (·.OfRun unbound) (add left right) := by
  unfold add
  split
  · rename_i failed
    exact failsOnly_error (unify_failsOnly _ failed)
  all_goals first
    | exact failsOnly_ok
    | exact failsOnly_error trivial

theorem sub_failsOnly : FailsOnly (·.OfRun unbound) (sub left right) := by
  unfold sub
  split
  · rename_i failed
    exact failsOnly_error (unify_failsOnly _ failed)
  all_goals first
    | exact failsOnly_ok
    | exact failsOnly_error trivial

theorem mul_failsOnly : FailsOnly (·.OfRun unbound) (mul left right) := by
  unfold mul
  split
  · rename_i failed
    exact failsOnly_error (integers_failsOnly _ failed)
  · exact failsOnly_ok

theorem div_failsOnly : FailsOnly (·.OfRun unbound) (div left right) := by
  unfold div
  split
  · rename_i failed
    exact failsOnly_error (integers_failsOnly _ failed)
  · split
    · exact failsOnly_error trivial
    · exact failsOnly_ok

theorem compare_failsOnly : FailsOnly (·.OfRun unbound) (compare symbol left right) := by
  unfold compare
  split
  · rename_i failed
    exact failsOnly_error (unify_failsOnly _ failed)
  all_goals first
    | exact failsOnly_ok
    | exact failsOnly_error trivial

theorem equals_failsOnly : FailsOnly (·.OfRun unbound) (equals left right) := by
  unfold equals
  split
  · rename_i failed
    exact failsOnly_error (unify_failsOnly _ failed)
  all_goals exact failsOnly_ok

theorem ordered_failsOnly : FailsOnly (·.OfRun unbound) (ordered op left right holds) := by
  unfold ordered
  split
  · rename_i failed
    exact failsOnly_error (compare_failsOnly _ failed)
  · exact failsOnly_ok

/-- The operators fail for their operands only. -/
theorem apply_failsOnly : FailsOnly (·.OfRun unbound) (apply op left right) := by
  cases op with
  | add => exact add_failsOnly
  | sub => exact sub_failsOnly
  | mul => exact mul_failsOnly
  | div => exact div_failsOnly
  | and | or => exact failsOnly_ok
  | eq | ne => exact equals_failsOnly.map
  | lt | le | gt | ge => exact ordered_failsOnly

end Arithmetic

namespace Value

variable {objects : ObjectHost} {policy : UnboundPolicy} {args : List Value}

theorem property?_failsOnly
    (keeps : ∀ resource name, (objects.property resource name).FailsOnly (·.OfRun unbound)) :
    (base.property? objects name).FailsOnly (·.OfRun unbound) := by
  cases base with
  | host id resource => exact Run.failsOnly_record.bind fun _ => keeps resource name
  | object | array | string | function | method => exact Run.failsOnly_pure
  | _ => exact Run.failsOnly_fail trivial

theorem readProperty_failsOnly
    (keeps : ∀ resource name, (objects.property resource name).FailsOnly (·.OfRun unbound)) :
    (base.readProperty objects policy name).FailsOnly (·.OfRun unbound) := by
  refine (property?_failsOnly keeps).bind fun found => ?_
  cases found with
  | some found =>
      cases found with
      | function code => exact Run.failsOnly_freshId.bind fun _ => Run.failsOnly_pure
      | _ => exact Run.failsOnly_pure
  | none =>
      cases policy with
      | undefined => exact Run.failsOnly_pure
      | error => exact Run.failsOnly_fail trivial

theorem elementAt_failsOnly {α : Type} {items : List α} :
    FailsOnly (·.OfRun unbound) (elementAt items index) := by
  unfold elementAt
  split
  · rename_i failed
    exact failsOnly_error (toInteger_failsOnly _ failed)
  · split
    · exact failsOnly_ok
    · exact failsOnly_error trivial

theorem hostPosition_failsOnly : FailsOnly (·.OfRun unbound) (hostPosition index) := by
  unfold hostPosition
  split
  · rename_i failed
    exact failsOnly_error (toInteger_failsOnly _ failed)
  · split
    · exact failsOnly_ok
    · exact failsOnly_error trivial

theorem readItem_failsOnly
    (keeps : ∀ resource position, (objects.item resource position).FailsOnly (·.OfRun unbound)) :
    (base.readItem objects index).FailsOnly (·.OfRun unbound) := by
  cases base with
  | array => exact Run.failsOnly_ofExcept elementAt_failsOnly
  | string => exact Run.failsOnly_ofExcept elementAt_failsOnly.map
  | host id resource =>
      exact (Run.failsOnly_ofExcept hostPosition_failsOnly).bind fun position =>
        keeps resource position
  | _ => exact Run.failsOnly_fail trivial

theorem call_failsOnly {body : Function → Value → Run Value}
    (keeps : ∀ code receiver, (body code receiver).FailsOnly (·.OfRun unbound)) :
    (base.call body args).FailsOnly (·.OfRun unbound) := by
  have enters (code : Function) (receiver : Value) :
      (call.enter body args code receiver).FailsOnly (·.OfRun unbound) := by
    unfold call.enter
    split
    · exact Run.failsOnly_record.bind fun _ => keeps code receiver
    · exact Run.failsOnly_fail trivial
  cases base with
  | function code => exact enters code .undefined
  | method id receiver code => exact enters code receiver
  | _ => exact Run.failsOnly_fail trivial

end Value

end

end EtherCalc
