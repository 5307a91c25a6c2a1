import EtherCalc.Arithmetic
import EtherCalc.Host
import Mathlib.Order.Basic

namespace EtherCalc

/-- A method as it was bound: the receiver, under an identity of its own, and the function. -/
structure Method where
  receiverId : Nat
  receiver : Value
  code : Function

namespace Value

mutual

/-- Every method in the value is one of those, and so are those in its receiver. -/
def MethodsIn (known : Method → Prop) : Value → Prop
  | .array _ items => MethodsInAll known items
  | .object _ _ fields => MethodsInFields known fields
  | .method receiverId receiver code =>
      known ⟨receiverId, receiver, code⟩ ∧ receiver.MethodsIn known
  | .undefined | .bool _ | .int _ | .big _ | .string _ | .host _ _ | .function _ => True
termination_by structural value => value

def MethodsInAll (known : Method → Prop) : List Value → Prop
  | [] => True
  | value :: rest => value.MethodsIn known ∧ MethodsInAll known rest
termination_by structural values => values

def MethodsInFields (known : Method → Prop) : List (String × Value) → Prop
  | [] => True
  | (_, value) :: rest => value.MethodsIn known ∧ MethodsInFields known rest
termination_by structural fields => fields

end

section

variable {known wider : Method → Prop}

mutual

theorem MethodsIn.mono (le : known ≤ wider) :
    (value : Value) → value.MethodsIn known → value.MethodsIn wider
  | .array _ items, holds => MethodsInAll.mono le items holds
  | .object _ _ fields, holds => MethodsInFields.mono le fields holds
  | .method _ receiver _, ⟨isKnown, holds⟩ => ⟨le _ isKnown, MethodsIn.mono le receiver holds⟩
  | .undefined, _ | .bool _, _ | .int _, _ | .big _, _ | .string _, _ | .host _ _, _
  | .function _, _ => trivial

theorem MethodsInAll.mono (le : known ≤ wider) :
    (values : List Value) → MethodsInAll known values → MethodsInAll wider values
  | [], _ => trivial
  | value :: rest, ⟨first, others⟩ =>
      ⟨MethodsIn.mono le value first, MethodsInAll.mono le rest others⟩

theorem MethodsInFields.mono (le : known ≤ wider) :
    (fields : List (String × Value)) → MethodsInFields known fields → MethodsInFields wider fields
  | [], _ => trivial
  | (_, value) :: rest, ⟨first, others⟩ =>
      ⟨MethodsIn.mono le value first, MethodsInFields.mono le rest others⟩

end

variable {value : Value} {values : List Value} {fields : List (String × Value)} {name : String}

theorem MethodsInFields.of_find? (holds : MethodsInFields known fields)
    (found : Entries.find? name fields = some value) : value.MethodsIn known := by
  induction fields with
  | nil => contradiction
  | cons field rest ih =>
      obtain ⟨key, first⟩ := field
      obtain ⟨holdsFirst, holdsRest⟩ := holds
      unfold Entries.find? at found
      split at found
      · obtain rfl := Option.some.inj found
        exact holdsFirst
      · exact ih holdsRest found

theorem methodsInAll_iff : MethodsInAll known values ↔ ∀ value ∈ values, value.MethodsIn known := by
  induction values with
  | nil => simp [MethodsInAll]
  | cons value rest ih => simp [MethodsInAll, ih]

end

end Value

/-- The value, if there is one, holds known methods only. -/
def Yields (known : Method → Prop) (result : Except EvalError Value) : Prop :=
  ∀ value, result = .ok value → value.MethodsIn known

section

variable {known wider : Method → Prop} {value left right index base : Value} {error : EvalError}
variable {result : Except EvalError Value}

theorem yields_ok (holds : value.MethodsIn known) : Yields known (.ok value) := by
  rintro _ ⟨⟩
  exact holds

theorem yields_error : Yields known (.error error) :=
  nofun

theorem Yields.mono (yields : Yields known result) (le : known ≤ wider) :
    Yields wider result :=
  fun value done => (yields value done).mono le

/-- What is made of a result by a function whose values hold no methods. -/
theorem yields_map {α : Type} {result : Except EvalError α} {build : α → Value}
    (plain : ∀ value, (build value).MethodsIn known) : Yields known (result.map build) := by
  cases result with
  | error error => exact yields_error
  | ok value => exact yields_ok (plain value)

theorem Integer.toValue_methodsIn {value : Int} : (toValue value).MethodsIn known := by
  unfold toValue
  split <;> trivial

namespace Arithmetic

variable {op : Operator} {holds : Ordering → Bool} {unit : Denomination}

theorem add_yields : Yields known (add left right) := by
  unfold add
  split
  all_goals first
    | exact yields_error
    | exact yields_ok trivial
    | exact yields_ok Integer.toValue_methodsIn

theorem sub_yields : Yields known (sub left right) := by
  unfold sub
  split
  all_goals first
    | exact yields_error
    | exact yields_ok trivial
    | exact yields_ok Integer.toValue_methodsIn

theorem mul_yields : Yields known (mul left right) := by
  unfold mul
  split
  · exact yields_error
  · exact yields_ok trivial

theorem div_yields : Yields known (div left right) := by
  unfold div
  split
  · exact yields_error
  · split
    · exact yields_error
    · exact yields_ok trivial

theorem ordered_yields : Yields known (ordered op left right holds) := by
  unfold ordered
  split
  · exact yields_error
  · exact yields_ok trivial

/-- Only `and` and `or` may hand on a method, which is one of an operand. -/
theorem apply_yields (holdsLeft : left.MethodsIn known) (holdsRight : right.MethodsIn known) :
    Yields known (apply op left right) := by
  cases op with
  | add => exact add_yields
  | sub => exact sub_yields
  | mul => exact mul_yields
  | div => exact div_yields
  | and | or =>
      unfold apply
      refine yields_ok ?_
      split
      · assumption
      · assumption
  | eq | ne => exact yields_map fun _ => trivial
  | lt | le | gt | ge => exact ordered_yields

theorem negate_yields : Yields known (negate left) :=
  yields_map fun _ => trivial

theorem scaled_yields : Yields known (scaled unit left) :=
  yields_map fun _ => trivial

end Arithmetic

end

end EtherCalc
