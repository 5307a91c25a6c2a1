import EtherCalc.Arithmetic
import EtherCalc.Value.Text

/-!
Values that differ in their identities only.

A `Matching` pairs the identities of two runs one to one.  Values correspond when each is the other
with the identities exchanged for their partners.  Nothing in the language sees more of an identity
than whether it is that of another value, so corresponding operands give corresponding results.
-/

namespace EtherCalc

/-- Pairs of identities, each one in at most one pair, and the first identity not in use on either
side. -/
structure Matching where
  next : Nat
  next' : Nat
  Pairs : Nat → Nat → Prop
  bounded {a b : Nat} : Pairs a b → a < next ∧ b < next'
  unique {a b c d : Nat} : Pairs a b → Pairs c d → (a = c ↔ b = d)

namespace Matching

variable {matching later last : Matching}

/-- Every pair is kept. -/
def Extends (matching later : Matching) : Prop :=
  ∀ a b, matching.Pairs a b → later.Pairs a b

/-- Every pair is kept, and the others are of identities that were not in use. -/
structure Grows (matching later : Matching) : Prop where
  keeps : matching.Extends later
  fresh : ∀ a b, later.Pairs a b → matching.Pairs a b ∨ matching.next ≤ a ∧ matching.next' ≤ b
  next : matching.next ≤ later.next
  next' : matching.next' ≤ later.next'

theorem Extends.trans (before : matching.Extends later) (after : later.Extends last) :
    matching.Extends last :=
  fun a b pair => after a b (before a b pair)

theorem Grows.refl : matching.Grows matching :=
  ⟨fun _ _ pair => pair, fun _ _ pair => .inl pair, Nat.le_refl _, Nat.le_refl _⟩

theorem Grows.trans (before : matching.Grows later) (after : later.Grows last) :
    matching.Grows last where
  keeps := before.keeps.trans after.keeps
  fresh a b pair := by
    rcases after.fresh a b pair with old | ⟨new, new'⟩
    · exact before.fresh a b old
    · exact .inr ⟨Nat.le_trans before.next new, Nat.le_trans before.next' new'⟩
  next := Nat.le_trans before.next after.next
  next' := Nat.le_trans before.next' after.next'

/-- The identities below the limit are paired with themselves. -/
def Fixes (matching : Matching) (limit : Nat) : Prop :=
  ∀ a < limit, matching.Pairs a a

theorem fixes_zero : matching.Fixes 0 :=
  nofun

theorem Fixes.mono {limit : Nat} (fixes : matching.Fixes limit)
    (extends_ : matching.Extends later) : later.Fixes limit :=
  fun a less => extends_ a a (fixes a less)

theorem Fixes.of_le {limit smaller : Nat} (fixes : matching.Fixes limit) (le : smaller ≤ limit) :
    matching.Fixes smaller :=
  fun a less => fixes a (Nat.lt_of_lt_of_le less le)

/-- Identities that are in use on both sides paired with themselves. -/
def diagonal (limit next next' : Nat) (le : limit ≤ next) (le' : limit ≤ next') : Matching where
  next := next
  next' := next'
  Pairs a b := a = b ∧ a < limit
  bounded := by
    rintro a b ⟨rfl, less⟩
    omega
  unique := by
    rintro a b c d ⟨rfl, _⟩ ⟨rfl, _⟩
    rfl

theorem fixes_diagonal {limit next next' : Nat} {le : limit ≤ next} {le' : limit ≤ next'} :
    (diagonal limit next next' le le').Fixes limit :=
  fun _ less => ⟨rfl, less⟩

/-- The first identity not in use on one side is paired with that of the other side. -/
def withFresh (matching : Matching) : Matching where
  next := matching.next + 1
  next' := matching.next' + 1
  Pairs a b := matching.Pairs a b ∨ a = matching.next ∧ b = matching.next'
  bounded := by
    rintro a b (pair | ⟨rfl, rfl⟩)
    · have bounds := matching.bounded pair
      omega
    · omega
  unique := by
    rintro a b c d (pair | ⟨rfl, rfl⟩) (other | ⟨rfl, rfl⟩)
    · exact matching.unique pair other
    · have bounds := matching.bounded pair
      omega
    · have bounds := matching.bounded other
      omega
    · exact ⟨fun _ => rfl, fun _ => rfl⟩

theorem grows_withFresh : matching.Grows matching.withFresh where
  keeps _ _ pair := .inl pair
  fresh a b pair := by
    rcases pair with old | ⟨rfl, rfl⟩
    · exact .inl old
    · exact .inr ⟨Nat.le_refl _, Nat.le_refl _⟩
  next := Nat.le_succ _
  next' := Nat.le_succ _

end Matching

structure Function.Corresponds (matching : Matching) (code code' : Function) : Prop where
  id : matching.Pairs code.id code'.id
  name : code.name = code'.name
  arity : code.arity = code'.arity
  routine : code.routine = code'.routine

theorem Function.Corresponds.mono {matching later : Matching} {code code' : Function}
    (corresponds : code.Corresponds matching code') (extends_ : matching.Extends later) :
    code.Corresponds later code' :=
  { corresponds with id := extends_ _ _ corresponds.id }

namespace Value

section

variable (matching : Matching)

mutual

/-- The values differ at most in their identities, which the matching pairs. -/
inductive Corresponds : Value → Value → Prop where
  | undefined : Corresponds .undefined .undefined
  | bool {value : Bool} : Corresponds (.bool value) (.bool value)
  | int {value : Int64} : Corresponds (.int value) (.int value)
  | big {value : Int} : Corresponds (.big value) (.big value)
  | string {text : String} : Corresponds (.string text) (.string text)
  | array {id id' : Nat} {items items' : List Value} : matching.Pairs id id' →
      CorrespondsAll items items' → Corresponds (.array id items) (.array id' items')
  | object {id id' : Nat} {typeName : String} {fields fields' : List (String × Value)} :
      matching.Pairs id id' → CorrespondsFields fields fields' →
        Corresponds (.object id typeName fields) (.object id' typeName fields')
  | host {id id' : Nat} {resource : HostObject} : matching.Pairs id id' →
      Corresponds (.host id resource) (.host id' resource)
  | function {code code' : Function} : code.Corresponds matching code' →
      Corresponds (.function code) (.function code')
  | method {id id' : Nat} {receiver receiver' : Value} {code code' : Function} :
      matching.Pairs id id' → Corresponds receiver receiver' → code.Corresponds matching code' →
        Corresponds (.method id receiver code) (.method id' receiver' code')

inductive CorrespondsAll : List Value → List Value → Prop where
  | nil : CorrespondsAll [] []
  | cons {value value' : Value} {rest rest' : List Value} : Corresponds value value' →
      CorrespondsAll rest rest' → CorrespondsAll (value :: rest) (value' :: rest')

inductive CorrespondsFields : List (String × Value) → List (String × Value) → Prop where
  | nil : CorrespondsFields [] []
  | cons {name : String} {value value' : Value} {rest rest' : List (String × Value)} :
      Corresponds value value' → CorrespondsFields rest rest' →
        CorrespondsFields ((name, value) :: rest) ((name, value') :: rest')

end

end

section

variable {matching later : Matching}

mutual

/-- Only the pairs of identities in the value matter. -/
theorem Corresponds.of_pairs {value value' : Value} :
    Corresponds matching value value' →
      (∀ a b, matching.Pairs a b → b < value'.nextId → later.Pairs a b) →
        Corresponds later value value'
  | .undefined, _ => .undefined
  | .bool, _ => .bool
  | .int, _ => .int
  | .big, _ => .big
  | .string, _ => .string
  | .array pair items, kept => by
      simp only [nextId] at kept
      exact .array (kept _ _ pair (by omega)) (items.of_pairs fun a b pair less =>
        kept a b pair (by omega))
  | .object pair fields, kept => by
      simp only [nextId] at kept
      exact .object (kept _ _ pair (by omega)) (fields.of_pairs fun a b pair less =>
        kept a b pair (by omega))
  | .host pair, kept => .host (kept _ _ pair (Nat.lt_succ_self _))
  | .function code, kept =>
      .function ⟨kept _ _ code.id (Nat.lt_succ_self _), code.name, code.arity, code.routine⟩
  | .method pair receiver code, kept => by
      simp only [nextId] at kept
      exact .method (kept _ _ pair (by omega))
        (receiver.of_pairs fun a b pair less => kept a b pair (by omega))
        ⟨kept _ _ code.id (by omega), code.name, code.arity, code.routine⟩

theorem CorrespondsAll.of_pairs {values values' : List Value} :
    CorrespondsAll matching values values' →
      (∀ a b, matching.Pairs a b → b < nextIdAll values' → later.Pairs a b) →
        CorrespondsAll later values values'
  | .nil, _ => .nil
  | .cons first rest, kept => by
      simp only [nextIdAll] at kept
      exact .cons (first.of_pairs fun a b pair less => kept a b pair (by omega))
        (rest.of_pairs fun a b pair less => kept a b pair (by omega))

theorem CorrespondsFields.of_pairs {fields fields' : List (String × Value)} :
    CorrespondsFields matching fields fields' →
      (∀ a b, matching.Pairs a b → b < nextIdFields fields' → later.Pairs a b) →
        CorrespondsFields later fields fields'
  | .nil, _ => .nil
  | .cons first rest, kept => by
      simp only [nextIdFields] at kept
      exact .cons (first.of_pairs fun a b pair less => kept a b pair (by omega))
        (rest.of_pairs fun a b pair less => kept a b pair (by omega))

end

theorem Corresponds.mono {value value' : Value} (corresponds : Corresponds matching value value')
    (extends_ : matching.Extends later) : Corresponds later value value' :=
  corresponds.of_pairs fun a b pair _ => extends_ a b pair

theorem CorrespondsAll.mono {values values' : List Value}
    (corresponds : CorrespondsAll matching values values')
    (extends_ : matching.Extends later) : CorrespondsAll later values values' :=
  corresponds.of_pairs fun a b pair _ => extends_ a b pair

mutual

/-- A value corresponds to itself where its identities are paired with themselves. -/
theorem corresponds_refl : (value : Value) → matching.Fixes value.nextId →
    Corresponds matching value value
  | .undefined, _ => .undefined
  | .bool _, _ => .bool
  | .int _, _ => .int
  | .big _, _ => .big
  | .string _, _ => .string
  | .array id items, fixes =>
      .array (fixes id (Nat.le_max_left _ _))
        (correspondsAll_refl items (fixes.of_le (Nat.le_max_right _ _)))
  | .object id _ fields, fixes =>
      .object (fixes id (Nat.le_max_left _ _))
        (correspondsFields_refl fields (fixes.of_le (Nat.le_max_right _ _)))
  | .host id _, fixes => .host (fixes id (Nat.lt_succ_self _))
  | .function code, fixes => .function ⟨fixes code.id (Nat.lt_succ_self _), rfl, rfl, rfl⟩
  | .method id receiver code, fixes => by
      have inside := fixes.of_le (Nat.le_max_right _ _)
      exact .method (fixes id (Nat.le_max_left _ _))
        (corresponds_refl receiver (inside.of_le (Nat.le_max_left _ _)))
        ⟨inside code.id (Nat.le_max_right _ _), rfl, rfl, rfl⟩

theorem correspondsAll_refl : (values : List Value) → matching.Fixes (nextIdAll values) →
    CorrespondsAll matching values values
  | [], _ => .nil
  | value :: rest, fixes =>
      .cons (corresponds_refl value (fixes.of_le (Nat.le_max_left _ _)))
        (correspondsAll_refl rest (fixes.of_le (Nat.le_max_right _ _)))

theorem correspondsFields_refl : (fields : List (String × Value)) →
    matching.Fixes (nextIdFields fields) → CorrespondsFields matching fields fields
  | [], _ => .nil
  | (_, value) :: rest, fixes =>
      .cons (corresponds_refl value (fixes.of_le (Nat.le_max_left _ _)))
        (correspondsFields_refl rest (fixes.of_le (Nat.le_max_right _ _)))

end

namespace Corresponds

variable {value value' : Value}

theorem typeName (corresponds : Corresponds matching value value') :
    value'.typeName = value.typeName := by
  cases corresponds <;> rfl

theorem isTruthy (corresponds : Corresponds matching value value') :
    value'.isTruthy = value.isTruthy := by
  cases corresponds <;> rfl

theorem toInteger (corresponds : Corresponds matching value value') :
    value'.toInteger = value.toInteger := by
  cases corresponds <;> rfl

end Corresponds

mutual

theorem Corresponds.describe {value value' : Value} :
    Corresponds matching value value' → value'.describe = value.describe
  | .undefined | .bool | .int | .big | .string | .host _ => rfl
  | .array _ items => by
      rw [Value.describe, Value.describe, items.describe]
  | .object _ fields => by
      rw [Value.describe, Value.describe, fields.describe]
  | .function code => by
      rw [Value.describe, Value.describe, code.name]
  | .method _ _ code => by
      rw [Value.describe, Value.describe, code.name]

theorem CorrespondsAll.describe {values values' : List Value} :
    CorrespondsAll matching values values' → describeAll values' = describeAll values
  | .nil => rfl
  | .cons first rest => by
      rw [describeAll, describeAll, first.describe, rest.describe]

theorem CorrespondsFields.describe {fields fields' : List (String × Value)} :
    CorrespondsFields matching fields fields' → describeFields fields' = describeFields fields
  | .nil => rfl
  | .cons first rest => by
      rw [describeFields, describeFields, first.describe, rest.describe]

end

mutual

theorem Corresponds.display {value value' : Value} :
    Corresponds matching value value' → value'.display = value.display
  | .undefined | .bool | .int | .big | .string | .host _ => rfl
  | .array _ items => by
      rw [Value.display, Value.display, items.display]
  | .object pair fields => Corresponds.describe (.object pair fields)
  | .function code => Corresponds.describe (.function code)
  | .method pair receiver code => Corresponds.describe (.method pair receiver code)

theorem CorrespondsAll.display {values values' : List Value} :
    CorrespondsAll matching values values' → displayAll values' = displayAll values
  | .nil => rfl
  | .cons first rest => by
      rw [displayAll, displayAll, first.display, rest.display]

end

section

variable {left left' right right' : Value} {values values' : List Value}
variable {fields fields' : List (String × Value)}

theorem CorrespondsAll.length (corresponds : CorrespondsAll matching values values') :
    values'.length = values.length := by
  induction values generalizing values' with
  | nil =>
      cases corresponds
      rfl
  | cons value rest ih =>
      cases corresponds with
      | cons first others => exact congrArg (· + 1) (ih others)

/-- Whether two values have one identity is the same on both sides, since no identity is in two
pairs. -/
theorem Corresponds.identical (correspondsLeft : Corresponds matching left left')
    (correspondsRight : Corresponds matching right right') :
    left'.identical right' = left.identical right := by
  have same {a b c d : Nat} (pair : matching.Pairs a b) (other : matching.Pairs c d) :
      (b == d) = (a == c) := by
    rw [Bool.eq_iff_iff, beq_iff_eq, beq_iff_eq]
    exact (matching.unique pair other).symm
  cases correspondsLeft with
  | array pair => cases correspondsRight with
    | array other => exact same pair other
    | _ => rfl
  | object pair => cases correspondsRight with
    | object other => exact same pair other
    | _ => rfl
  | host pair => cases correspondsRight with
    | host other => exact same pair other
    | _ => rfl
  | function code => cases correspondsRight with
    | function other => exact same code.id other.id
    | _ => rfl
  | method pair _ code => cases correspondsRight with
    | method other _ otherCode =>
        rw [Value.identical, Value.identical, same pair other, same code.id otherCode.id]
    | _ => rfl
  | _ => cases correspondsRight <;> rfl

theorem CorrespondsFields.find? {name : String}
    (corresponds : CorrespondsFields matching fields fields') :
    Option.Rel (Corresponds matching) (Entries.find? name fields) (Entries.find? name fields') := by
  induction fields generalizing fields' with
  | nil =>
      cases corresponds
      exact .none
  | cons field rest ih =>
      cases corresponds with
      | cons first others =>
          unfold Entries.find?
          split
          · exact .some first
          · exact ih others

theorem CorrespondsAll.getElem? {position : Nat}
    (corresponds : CorrespondsAll matching values values') :
    Option.Rel (Corresponds matching) values[position]? values'[position]? := by
  induction values generalizing values' position with
  | nil =>
      cases corresponds
      exact .none
  | cons value rest ih =>
      cases corresponds with
      | cons first others =>
          cases position with
          | zero => exact .some first
          | succ position => exact ih others

end

end

end Value

/-- Both fail with one error, or both have a value and the values are related. -/
inductive Related {α : Type} (related : α → α → Prop) :
    Except EvalError α → Except EvalError α → Prop where
  | error {error : EvalError} : Related related (.error error) (.error error)
  | ok {value value' : α} : related value value' → Related related (.ok value) (.ok value')

theorem Related.map {α β : Type} {related : α → α → Prop} {related' : β → β → Prop}
    {build : α → β} {result result' : Except EvalError α} (results : Related related result result')
    (builds : ∀ value value', related value value' → related' (build value) (build value')) :
    Related related' (result.map build) (result'.map build) := by
  cases results with
  | error => exact .error
  | ok values => exact .ok (builds _ _ values)

theorem related_eq {α : Type} {result : Except EvalError α} : Related Eq result result := by
  cases result with
  | error => exact .error
  | ok => exact .ok rfl

theorem Integer.toValue_corresponds {matching : Matching} {value : Int} :
    Value.Corresponds matching (toValue value) (toValue value) := by
  unfold toValue
  split
  · exact .int
  · exact .big

namespace Arithmetic

variable {matching : Matching} {left left' right right' : Value} {symbol : String}
variable {op : Operator} {holds : Ordering → Bool}

theorem integers_eq (correspondsLeft : Value.Corresponds matching left left')
    (correspondsRight : Value.Corresponds matching right right') :
    integers left' right' = integers left right := by
  rw [integers, integers, correspondsLeft.toInteger, correspondsRight.toInteger]

/-- Operands are read as integers on both sides, or on neither. -/
theorem unify_cases (correspondsLeft : Value.Corresponds matching left left')
    (correspondsRight : Value.Corresponds matching right right') :
    (∃ error, unify left right = .error error ∧ unify left' right' = .error error) ∨
    (∃ m n, unify left right = .ok (.integers m n) ∧ unify left' right' = .ok (.integers m n)) ∨
    unify left right = .ok (.plain left right) ∧
      unify left' right' = .ok (.plain left' right') := by
  have big : (isBig left' || isBig right') = (isBig left || isBig right) := by
    cases correspondsLeft <;> cases correspondsRight <;> rfl
  simp only [unify, big, integers_eq correspondsLeft correspondsRight]
  split
  · split
    · exact .inl ⟨_, rfl, rfl⟩
    · exact .inr (.inl ⟨_, _, rfl, rfl⟩)
  · exact .inr (.inr ⟨rfl, rfl⟩)

theorem add_corresponds (correspondsLeft : Value.Corresponds matching left left')
    (correspondsRight : Value.Corresponds matching right right') :
    Related (Value.Corresponds matching) (add left right) (add left' right') := by
  unfold add
  rcases unify_cases correspondsLeft correspondsRight with
    ⟨error, unified, unified'⟩ | ⟨m, n, unified, unified'⟩ | ⟨unified, unified'⟩ <;>
    rw [unified, unified']
  · exact .error
  · exact .ok .big
  · cases correspondsLeft <;> cases correspondsRight <;> first
      | exact .error
      | exact .ok .string
      | exact .ok Integer.toValue_corresponds

theorem sub_corresponds (correspondsLeft : Value.Corresponds matching left left')
    (correspondsRight : Value.Corresponds matching right right') :
    Related (Value.Corresponds matching) (sub left right) (sub left' right') := by
  unfold sub
  rcases unify_cases correspondsLeft correspondsRight with
    ⟨error, unified, unified'⟩ | ⟨m, n, unified, unified'⟩ | ⟨unified, unified'⟩ <;>
    rw [unified, unified']
  · exact .error
  · exact .ok .big
  · cases correspondsLeft <;> cases correspondsRight <;> first
      | exact .error
      | exact .ok Integer.toValue_corresponds

theorem compare_eq (correspondsLeft : Value.Corresponds matching left left')
    (correspondsRight : Value.Corresponds matching right right') :
    compare symbol left' right' = compare symbol left right := by
  unfold compare
  rcases unify_cases correspondsLeft correspondsRight with
    ⟨error, unified, unified'⟩ | ⟨m, n, unified, unified'⟩ | ⟨unified, unified'⟩ <;>
    rw [unified, unified']
  cases correspondsLeft <;> cases correspondsRight <;> rfl

theorem equals_eq (correspondsLeft : Value.Corresponds matching left left')
    (correspondsRight : Value.Corresponds matching right right') :
    equals left' right' = equals left right := by
  unfold equals
  rcases unify_cases correspondsLeft correspondsRight with
    ⟨error, unified, unified'⟩ | ⟨m, n, unified, unified'⟩ | ⟨unified, unified'⟩ <;>
    rw [unified, unified']
  simp only [correspondsLeft.identical correspondsRight]

theorem mul_corresponds (correspondsLeft : Value.Corresponds matching left left')
    (correspondsRight : Value.Corresponds matching right right') :
    Related (Value.Corresponds matching) (mul left right) (mul left' right') := by
  rw [mul, mul, integers_eq correspondsLeft correspondsRight]
  split
  · exact .error
  · exact .ok .big

theorem div_corresponds (correspondsLeft : Value.Corresponds matching left left')
    (correspondsRight : Value.Corresponds matching right right') :
    Related (Value.Corresponds matching) (div left right) (div left' right') := by
  rw [div, div, integers_eq correspondsLeft correspondsRight]
  split
  · exact .error
  · split
    · exact .error
    · exact .ok .big

theorem ordered_corresponds (correspondsLeft : Value.Corresponds matching left left')
    (correspondsRight : Value.Corresponds matching right right') :
    Related (Value.Corresponds matching) (ordered op left right holds)
      (ordered op left' right' holds) := by
  rw [ordered, ordered, compare_eq correspondsLeft correspondsRight]
  split
  · exact .error
  · exact .ok .bool

/-- The operators do the same to corresponding operands. -/
theorem apply_corresponds (correspondsLeft : Value.Corresponds matching left left')
    (correspondsRight : Value.Corresponds matching right right') :
    Related (Value.Corresponds matching) (apply op left right) (apply op left' right') := by
  cases op with
  | add => exact add_corresponds correspondsLeft correspondsRight
  | sub => exact sub_corresponds correspondsLeft correspondsRight
  | mul => exact mul_corresponds correspondsLeft correspondsRight
  | div => exact div_corresponds correspondsLeft correspondsRight
  | and =>
      rw [apply, apply, correspondsLeft.isTruthy]
      split
      · exact .ok correspondsRight
      · exact .ok correspondsLeft
  | or =>
      rw [apply, apply, correspondsLeft.isTruthy]
      split
      · exact .ok correspondsLeft
      · exact .ok correspondsRight
  | eq | ne =>
      rw [apply, apply, equals_eq correspondsLeft correspondsRight]
      refine related_eq.map fun value value' same => ?_
      subst same
      exact .bool
  | lt | le | gt | ge => exact ordered_corresponds correspondsLeft correspondsRight

theorem negate_corresponds (corresponds : Value.Corresponds matching left left') :
    Related (Value.Corresponds matching) (negate left) (negate left') := by
  rw [negate, negate, corresponds.toInteger]
  refine related_eq.map fun value value' same => ?_
  subst same
  exact .big

theorem scaled_corresponds {unit : Denomination}
    (corresponds : Value.Corresponds matching left left') :
    Related (Value.Corresponds matching) (scaled unit left) (scaled unit left') := by
  rw [scaled, scaled, corresponds.toInteger]
  refine related_eq.map fun value value' same => ?_
  subst same
  exact .big

end Arithmetic

end EtherCalc
