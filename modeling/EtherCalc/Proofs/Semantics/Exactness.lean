import EtherCalc.Proofs.Semantics.Compilation
import EtherCalc.Proofs.Semantics.Integers
import Mathlib

/-!
Expressions over integers are computed exactly.

`Computes` and `Decides` say which expressions are meant and what they come to over all integers,
together with everything that is divided by.  Such an expression calls no host code; it fails only
if one of the divisors is zero, and in which form the context has its integers plays no part.
-/

namespace EtherCalc

namespace Expr

/-- The expression has an integer, and divides by the integers on the list. -/
inductive Computes (config : Config) (context : Context) : Expr → Int → List Int → Prop where
  | number {text : String} {integer : Int} (valid : Numeral.read text = .ok integer) :
      Computes config context (.number text) integer []
  | scientific {mantissa exponent : String} {factor : Int} {power : Nat}
      (validMantissa : Numeral.read mantissa = .ok factor)
      (validExponent : Numeral.read exponent = .ok (power : Int))
      (small : power ≤ config.maxExponent) :
      Computes config context (.scientific mantissa exponent) (factor * 10 ^ power) []
  | bound {name : String} {value : Value} {integer : Int} (free : booleanWord? name = none)
      (found : context.get? name = some value) (carries : value.Carries integer) :
      Computes config context (.variable name) integer []
  | amount {quantity : Expr} {unit : Denomination} {integer : Int} {divisors : List Int}
      (inner : Computes config context quantity integer divisors) :
      Computes config context (.amount quantity unit) (integer * 10 ^ unit.decimals) divisors
  | negate {operand : Expr} {integer : Int} {divisors : List Int}
      (inner : Computes config context operand integer divisors) :
      Computes config context (.negate operand) (-integer) divisors
  | binary {op : Operator} {left right : Expr} {combine : Int → Int → Int} {m n : Int}
      {divisors divisors' : List Int} (combines : op.integer? = some combine)
      (first : Computes config context left m divisors)
      (second : Computes config context right n divisors') :
      Computes config context (.binary op left right) (combine m n)
        (divisors ++ (divisors' ++ op.divisors n))

/-- The expression is true or false, and divides by the integers on the list. -/
inductive Decides (config : Config) (context : Context) : Expr → Bool → List Int → Prop where
  | bool {truth : Bool} : Decides config context (.bool truth) truth []
  | reserved {name : String} {truth : Bool} (word : booleanWord? name = some truth) :
      Decides config context (.variable name) truth []
  | comparison {op : Operator} {left right : Expr} {holds : Int → Int → Bool} {m n : Int}
      {divisors divisors' : List Int} (compares : op.comparison? = some holds)
      (first : Computes config context left m divisors)
      (second : Computes config context right n divisors') :
      Decides config context (.binary op left right) (holds m n) (divisors ++ divisors')
  | isZero {operand : Expr} {integer : Int} {divisors : List Int}
      (inner : Computes config context operand integer divisors) :
      Decides config context (.not operand) (decide (integer = 0)) divisors
  | not {operand : Expr} {truth : Bool} {divisors : List Int}
      (inner : Decides config context operand truth divisors) :
      Decides config context (.not operand) (!truth) divisors
  | connective {op : Operator} {left right : Expr} {combine : Bool → Bool → Bool}
      {truth truth' : Bool} {divisors divisors' : List Int}
      (combines : op.connective? = some combine)
      (first : Decides config context left truth divisors)
      (second : Decides config context right truth' divisors') :
      Decides config context (.binary op left right) (combine truth truth') (divisors ++ divisors')

end Expr

/-- The other context has the same integers under the same names, in any form. -/
def Context.SameIntegers (context other : Context) : Prop :=
  ∀ name value integer, context.get? name = some value → value.Carries integer →
    ∃ value', other.get? name = some value' ∧ value'.Carries integer

theorem Context.SameIntegers.refl {context : Context} : context.SameIntegers context :=
  fun _ value _ bound carries => ⟨value, bound, carries⟩

/-- A binding may change the form of its integer. -/
theorem Context.sameIntegers_define {context : Context} {name : String} {value value' : Value}
    {integer : Int} (carries : value.Carries integer) (carries' : value'.Carries integer) :
    (context.define name value).SameIntegers (context.define name value') := by
  intro key found other bound isCarried
  rw [get?_define] at bound ⊢
  by_cases here : key = name
  · rw [if_pos here] at bound ⊢
    cases bound
    cases Except.ok.inj (carries.toInteger.symm.trans isCarried.toInteger)
    exact ⟨value', rfl, carries'⟩
  · rw [if_neg here] at bound ⊢
    exact ⟨found, bound, isCarried⟩

/-- The run ends well if no divisor is zero and with a division by zero if one is; it asks nothing
of the host. -/
def Run.Settles (run : Run Value) (good : Value → Prop) (divisors : List Int) : Prop :=
  (0 ∉ divisors ∧ ∃ value, good value ∧ ∀ id, run id = ⟨.ok value, [], id⟩) ∨
    (0 ∈ divisors ∧ ∀ id, run id = ⟨.error .divisionByZero, [], id⟩)

section

variable {good good' : Value → Prop} {divisors divisors' : List Int} {value : Value}
variable {first : Run Value} {next : Value → Run Value}

theorem Run.settles_pure (isGood : good value) : (pure value : Run Value).Settles good [] :=
  .inl ⟨List.not_mem_nil, value, isGood, fun _ => rfl⟩

theorem Run.settles_bind (settles : first.Settles good divisors)
    (settlesNext : ∀ value, good value → (next value).Settles good' divisors') :
    Run.Settles (first >>= next) good' (divisors ++ divisors') := by
  rcases settles with ⟨none, value, isGood, done⟩ | ⟨zero, failed⟩
  · have same : (first >>= next) = next value := by
      funext id
      rw [bind_ok (done id)]
      rfl
    rw [same]
    rcases settlesNext value isGood with ⟨noneNext, settled⟩ | ⟨zero, failed⟩
    · exact .inl ⟨fun member => (List.mem_append.mp member).elim none noneNext, settled⟩
    · exact .inr ⟨List.mem_append_right _ zero, failed⟩
  · exact .inr ⟨List.mem_append_left _ zero, fun id => bind_error (failed id)⟩

/-- What is done with the value of a settled run divides by nothing. -/
theorem Run.settles_map (settles : first.Settles good divisors)
    (acts : ∀ value, good value → ∃ value', good' value' ∧ next value = pure value') :
    Run.Settles (first >>= next) good' divisors := by
  have settled : Run.Settles (first >>= next) good' (divisors ++ []) := by
    refine settles_bind settles fun value isGood => ?_
    obtain ⟨value', isGood', same⟩ := acts value isGood
    rw [same]
    exact settles_pure isGood'
  rwa [List.append_nil] at settled

theorem Denomination.scale_eq (unit : Denomination) : unit.scale = 10 ^ unit.decimals :=
  Int.natCast_pow 10 unit.decimals

theorem Numeral.scientific_of_parts {mantissa exponent : String} {factor : Int} {power limit : Nat}
    (validMantissa : read mantissa = .ok factor) (validExponent : read exponent = .ok (power : Int))
    (small : power ≤ limit) : scientific limit mantissa exponent = .ok (factor * 10 ^ power) := by
  have fits : 0 ≤ (power : Int) ∧ (power : Int) ≤ limit := by omega
  simp only [scientific, validMantissa, validExponent, if_pos fits, Int.toNat_natCast]
  rw [show ((Nat.pow 10 power : Nat) : Int) = 10 ^ power from Int.natCast_pow 10 power]

theorem Arithmetic.apply_settles {op : Operator} {combine : Int → Int → Int} {left right : Value}
    {m n : Int} (combines : op.integer? = some combine) (carriesLeft : left.Carries m)
    (carriesRight : right.Carries n) :
    (Run.ofExcept (apply op left right)).Settles (·.Carries (combine m n)) (op.divisors n) := by
  by_cases zero : 0 ∈ op.divisors n
  · rw [apply_zero carriesLeft carriesRight zero]
    exact .inr ⟨zero, fun _ => rfl⟩
  · obtain ⟨value, applied, carries⟩ := apply_integer combines carriesLeft carriesRight zero
    rw [applied]
    exact .inl ⟨zero, value, carries, fun _ => rfl⟩

end

section

variable {config : Config} {context : Context} {expr : Expr} {divisors : List Int}

theorem Program.ofExpr_binary {op : Operator} {left right : Expr} {left' right' : Program}
    (compiledLeft : ofExpr config left = .ok left')
    (compiledRight : ofExpr config right = .ok right') :
    ofExpr config (.binary op left right) = .ok (.binary op left' right') :=
  bind_eq_ok.mpr ⟨left', compiledLeft, bind_eq_ok.mpr ⟨right', compiledRight, rfl⟩⟩

theorem Expr.Computes.settles {integer : Int}
    (computes : expr.Computes config context integer divisors) :
    ∃ program, Program.ofExpr config expr = .ok program ∧
      ∀ host other, context.SameIntegers other →
        (program.run host other).Settles (·.Carries integer) divisors := by
  induction computes with
  | @number text integer valid =>
      exact ⟨_, bind_eq_ok.mpr ⟨integer, valid, rfl⟩, fun _ _ _ => Run.settles_pure (.big integer)⟩
  | scientific validMantissa validExponent small =>
      have valid := Numeral.scientific_of_parts validMantissa validExponent small
      exact ⟨_, bind_eq_ok.mpr ⟨_, valid, rfl⟩, fun _ _ _ => Run.settles_pure (.big _)⟩
  | @bound name value integer free found carries =>
      refine ⟨.variable name config.unbound, ?_, fun host other same => ?_⟩
      · simp only [Program.ofExpr, free]
        rfl
      · obtain ⟨value', found', carries'⟩ := same name value integer found carries
        simp only [Program.run, found']
        exact Run.settles_pure carries'
  | @amount quantity unit integer divisors inner ih =>
      obtain ⟨program, compiled, settles⟩ := ih
      refine ⟨_, bind_eq_ok.mpr ⟨program, compiled, rfl⟩, fun host other same => ?_⟩
      refine Run.settles_map (settles host other same) fun value carries => ⟨.big _, .big _, ?_⟩
      rw [Arithmetic.scaled, carries.toInteger, unit.scale_eq]
      rfl
  | @negate operand integer divisors inner ih =>
      obtain ⟨program, compiled, settles⟩ := ih
      refine ⟨_, bind_eq_ok.mpr ⟨program, compiled, rfl⟩, fun host other same => ?_⟩
      refine Run.settles_map (settles host other same) fun value carries => ⟨.big _, .big _, ?_⟩
      rw [Arithmetic.negate, carries.toInteger]
      rfl
  | binary combines first second ihFirst ihSecond =>
      obtain ⟨left', compiledLeft, settlesLeft⟩ := ihFirst
      obtain ⟨right', compiledRight, settlesRight⟩ := ihSecond
      refine ⟨_, Program.ofExpr_binary compiledLeft compiledRight, fun host other same => ?_⟩
      exact Run.settles_bind (settlesLeft host other same) fun value carries =>
        Run.settles_bind (settlesRight host other same) fun value' carries' =>
          Arithmetic.apply_settles combines carries carries'

theorem Expr.Decides.settles {truth : Bool}
    (decides : expr.Decides config context truth divisors) :
    ∃ program, Program.ofExpr config expr = .ok program ∧
      ∀ host other, context.SameIntegers other →
        (program.run host other).Settles (· = .bool truth) divisors := by
  induction decides with
  | @bool truth => exact ⟨.literal (.bool truth), rfl, fun _ _ _ => Run.settles_pure rfl⟩
  | @reserved name truth word =>
      refine ⟨.literal (.bool truth), ?_, fun _ _ _ => Run.settles_pure rfl⟩
      simp only [Program.ofExpr, word]
      rfl
  | comparison compares first second =>
      obtain ⟨left', compiledLeft, settlesLeft⟩ := first.settles
      obtain ⟨right', compiledRight, settlesRight⟩ := second.settles
      refine ⟨_, Program.ofExpr_binary compiledLeft compiledRight, fun host other same => ?_⟩
      refine Run.settles_bind (settlesLeft host other same) fun value carries =>
        Run.settles_map (settlesRight host other same) fun value' carries' => ⟨_, rfl, ?_⟩
      rw [Arithmetic.apply_comparison compares carries carries']
      rfl
  | isZero inner =>
      obtain ⟨program, compiled, settles⟩ := inner.settles
      refine ⟨_, bind_eq_ok.mpr ⟨program, compiled, rfl⟩, fun host other same => ?_⟩
      rw [Program.run_not]
      refine Run.settles_map (settles host other same) fun value carries => ⟨_, rfl, ?_⟩
      rw [carries.isTruthy, decide_not, Bool.not_not]
      rfl
  | not inner ih =>
      obtain ⟨program, compiled, settles⟩ := ih
      refine ⟨_, bind_eq_ok.mpr ⟨program, compiled, rfl⟩, fun host other same => ?_⟩
      rw [Program.run_not]
      refine Run.settles_map (settles host other same) fun value isBool => ⟨_, rfl, ?_⟩
      rw [isBool]
      rfl
  | connective combines first second ihFirst ihSecond =>
      obtain ⟨left', compiledLeft, settlesLeft⟩ := ihFirst
      obtain ⟨right', compiledRight, settlesRight⟩ := ihSecond
      refine ⟨_, Program.ofExpr_binary compiledLeft compiledRight, fun host other same => ?_⟩
      refine Run.settles_bind (settlesLeft host other same) fun value isBool =>
        Run.settles_map (settlesRight host other same) fun value' isBool' => ⟨_, rfl, ?_⟩
      rw [isBool, isBool', Arithmetic.apply_connective combines]
      rfl

/-- Under the depth limit an expression over integers has its exact value in every context that
binds the same integers, and fails only by dividing by zero, which it does if any divisor is
zero. -/
theorem integers_exact (config : Config) (context : Context) (expr : Expr)
    (low : expr.height ≤ config.maxDepth) :
    (∀ integer divisors, expr.Computes config context integer divisors →
      ∃ program, Program.compile config expr = .ok program ∧
        ∀ host other, context.SameIntegers other →
          (program.run host other).Settles (·.Carries integer) divisors) ∧
    (∀ truth divisors, expr.Decides config context truth divisors →
      ∃ program, Program.compile config expr = .ok program ∧
        ∀ host other, context.SameIntegers other →
          (program.run host other).Settles (· = .bool truth) divisors) := by
  rw [Program.compile_eq_ofExpr low]
  exact ⟨fun _ _ computes => computes.settles, fun _ _ decides => decides.settles⟩

/-- A sum that leaves the machine word, in either form of its operand, and a quotient by zero. -/
theorem integers_exact_overflow :
    let config : Config := .default
    let context := Context.empty.define "n" (.int Int64.maxValue)
    let other := Context.empty.define "n" (.big 9223372036854775807)
    let twice : Expr := .binary .add (.variable "n") (.variable "n")
    let failing : Expr := .not (.binary .div (.variable "n") (.number "0"))
    context.SameIntegers other ∧
      twice.Computes config context 18446744073709551614 [] ∧
      (∃ program, Program.compile config twice = .ok program ∧
        ∀ host, (program.run host context).Settles (·.Carries 18446744073709551614) [] ∧
          (program.run host other).Settles (·.Carries 18446744073709551614) []) ∧
      failing.Decides config context true [0] ∧
      ∃ program, Program.compile config failing = .ok program ∧
        ∀ host, (program.run host other).Settles (· = .bool true) [0] := by
  intro config context other twice failing
  have carries : (Value.int Int64.maxValue).Carries 9223372036854775807 := .int Int64.maxValue
  have operand : (Expr.variable "n").Computes config context 9223372036854775807 [] :=
    .bound (by decide) rfl carries
  have same : context.SameIntegers other := Context.sameIntegers_define carries (.big _)
  have adds : Operator.add.integer? = some fun left right => left + right := rfl
  have computes : twice.Computes config context 18446744073709551614 [] :=
    .binary adds operand operand
  have divides : Operator.div.integer? = some Int.tdiv := rfl
  have zero : (Expr.number "0").Computes config context 0 [] := .number (by cbv)
  have decides : failing.Decides config context true [0] :=
    .isZero (.binary divides operand zero)
  obtain ⟨program, compiled, settles⟩ :=
    (integers_exact config context twice (by decide)).1 _ _ computes
  obtain ⟨program', compiled', settles'⟩ :=
    (integers_exact config context failing (by decide)).2 _ _ decides
  exact ⟨same, computes, ⟨program, compiled, fun host => ⟨settles host context .refl,
    settles host other same⟩⟩, decides, program', compiled', fun host => settles' host other same⟩

end

end EtherCalc
