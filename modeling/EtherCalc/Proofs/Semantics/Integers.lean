import EtherCalc.Arithmetic
import Mathlib

namespace EtherCalc

/-- The value is the integer, in one of the two forms that it can have. -/
inductive Value.Carries : Value → Int → Prop where
  | int (word : Int64) : Carries (.int word) word.toInt
  | big (integer : Int) : Carries (.big integer) integer

namespace Operator

/-- The operators that make an integer of two.  A quotient has no fraction; zero is a divisor here
too, and the quotient is then zero.  `and` and `or` choose one of the two. -/
def integer? : Operator → Option (Int → Int → Int)
  | .add => some fun left right => left + right
  | .sub => some fun left right => left - right
  | .mul => some fun left right => left * right
  | .div => some Int.tdiv
  | .and => some fun left right => if left = 0 then left else right
  | .or => some fun left right => if left = 0 then right else left
  | _ => none

/-- The operators that compare two integers. -/
def comparison? : Operator → Option (Int → Int → Bool)
  | .eq => some fun left right => decide (left = right)
  | .ne => some fun left right => decide (left ≠ right)
  | .lt => some fun left right => decide (left < right)
  | .le => some fun left right => decide (left ≤ right)
  | .gt => some fun left right => decide (left > right)
  | .ge => some fun left right => decide (left ≥ right)
  | _ => none

def connective? : Operator → Option (Bool → Bool → Bool)
  | .and => some fun left right => left && right
  | .or => some fun left right => left || right
  | .eq => some fun left right => left == right
  | .ne => some fun left right => left != right
  | _ => none

/-- The right operand, if the operator divides by it. -/
def divisors : Operator → Int → List Int
  | .div, right => [right]
  | _, _ => []

end Operator

section

variable {value left right : Value} {integer m n : Int}

theorem Value.Carries.toInteger (carries : value.Carries integer) :
    value.toInteger = .ok integer := by
  cases carries <;> rfl

theorem Value.Carries.isTruthy (carries : value.Carries integer) :
    value.isTruthy = decide (integer ≠ 0) := by
  rw [Bool.eq_iff_iff, decide_eq_true_iff]
  cases carries with
  | big => exact bne_iff_ne
  | int word =>
      have zero : word = 0 ↔ word.toInt = 0 := Int64.toInt_inj.symm
      rw [Value.isTruthy, bne_iff_ne, ne_eq, zero]

theorem Integer.toValue_carries : (toValue integer).Carries integer := by
  unfold toValue narrow?
  by_cases fits : Int64.minValue.toInt ≤ integer ∧ integer ≤ Int64.maxValue.toInt
  · have exact : (Int64.ofInt integer).toInt = integer := by
      obtain ⟨low, high⟩ := fits
      simp only [Int64.toInt_minValue, Int64.toInt_maxValue] at low high
      exact Int64.toInt_ofInt_of_le low (by omega)
    rw [if_pos fits]
    have carries := Value.Carries.int (Int64.ofInt integer)
    rwa [exact] at carries
  · rw [if_neg fits]
    exact .big integer

theorem Integer.toInt_of_narrow? {word : Int64} (narrowed : narrow? integer = some word) :
    word.toInt = integer := by
  have carries : (toValue integer).Carries integer := toValue_carries
  rw [toValue, narrowed] at carries
  cases carries
  rfl

theorem Integer.narrow?_toInt {word : Int64} : narrow? word.toInt = some word := by
  have fits : Int64.minValue.toInt ≤ word.toInt ∧ word.toInt ≤ Int64.maxValue.toInt :=
    ⟨Int64.minValue_le_toInt word, Int64.toInt_le word⟩
  rw [narrow?, if_pos fits, Int64.ofInt_toInt]

namespace Arithmetic

theorem integers_carries (carriesLeft : left.Carries m) (carriesRight : right.Carries n) :
    integers left right = .ok (m, n) := by
  simp only [integers, carriesLeft.toInteger, carriesRight.toInteger]

/-- Only two words stay words. -/
theorem unify_carries (carriesLeft : left.Carries m) (carriesRight : right.Carries n) :
    unify left right = .ok (.integers m n) ∨
      ∃ word word', m = word.toInt ∧ n = word'.toInt ∧
        unify left right = .ok (.plain (.int word) (.int word')) := by
  cases carriesLeft with
  | big => cases carriesRight <;> exact .inl rfl
  | int word =>
      cases carriesRight with
      | big => exact .inl rfl
      | int word' => exact .inr ⟨word, word', rfl, rfl, rfl⟩

theorem add_carries (carriesLeft : left.Carries m) (carriesRight : right.Carries n) :
    ∃ value, add left right = .ok value ∧ value.Carries (m + n) := by
  rcases unify_carries carriesLeft carriesRight with
    unified | ⟨word, word', rfl, rfl, unified⟩
  · exact ⟨.big (m + n), by simp only [add, unified], .big _⟩
  · exact ⟨Integer.toValue (word.toInt + word'.toInt), by simp only [add, unified],
      Integer.toValue_carries⟩

theorem sub_carries (carriesLeft : left.Carries m) (carriesRight : right.Carries n) :
    ∃ value, sub left right = .ok value ∧ value.Carries (m - n) := by
  rcases unify_carries carriesLeft carriesRight with
    unified | ⟨word, word', rfl, rfl, unified⟩
  · exact ⟨.big (m - n), by simp only [sub, unified], .big _⟩
  · exact ⟨Integer.toValue (word.toInt - word'.toInt), by simp only [sub, unified],
      Integer.toValue_carries⟩

theorem compare_carries {symbol : String} (carriesLeft : left.Carries m)
    (carriesRight : right.Carries n) :
    compare symbol left right = .ok (compareOfLessAndEq m n) := by
  rcases unify_carries carriesLeft carriesRight with
    unified | ⟨word, word', rfl, rfl, unified⟩ <;> simp only [compare, unified]

theorem equals_carries (carriesLeft : left.Carries m) (carriesRight : right.Carries n) :
    equals left right = .ok (decide (m = n)) := by
  rcases unify_carries carriesLeft carriesRight with
    unified | ⟨word, word', rfl, rfl, unified⟩
  · simp only [equals, unified]
    rfl
  · have same : word = word' ↔ word.toInt = word'.toInt := Int64.toInt_inj.symm
    simp only [equals, unified, Value.identical, Except.ok.injEq]
    rw [Bool.eq_iff_iff, beq_iff_eq, decide_eq_true_iff, same]

theorem ordered_carries {op : Operator} {holds : Ordering → Bool} (carriesLeft : left.Carries m)
    (carriesRight : right.Carries n) :
    ordered op left right holds = .ok (.bool (holds (compareOfLessAndEq m n))) := by
  simp only [ordered, compare_carries carriesLeft carriesRight]

theorem apply_integer {op : Operator} {combine : Int → Int → Int}
    (combines : op.integer? = some combine) (carriesLeft : left.Carries m)
    (carriesRight : right.Carries n) (divides : 0 ∉ op.divisors n) :
    ∃ value, apply op left right = .ok value ∧ value.Carries (combine m n) := by
  have read := integers_carries carriesLeft carriesRight
  cases op with
  | add =>
      cases combines
      exact add_carries carriesLeft carriesRight
  | sub =>
      cases combines
      exact sub_carries carriesLeft carriesRight
  | mul =>
      cases combines
      exact ⟨.big (m * n), by simp only [apply, mul, read], .big _⟩
  | div =>
      cases combines
      have some : n ≠ 0 := fun zero => divides (List.mem_singleton.mpr zero.symm)
      exact ⟨.big (m.tdiv n), by simp only [apply, div, read, if_neg some], .big _⟩
  | and | or =>
      cases combines
      refine ⟨_, rfl, ?_⟩
      rw [carriesLeft.isTruthy]
      by_cases zero : m = 0
      · subst zero
        simpa
      · simpa [zero]
  | _ => cases combines

theorem apply_zero {op : Operator} (carriesLeft : left.Carries m) (carriesRight : right.Carries n)
    (zero : 0 ∈ op.divisors n) : apply op left right = .error .divisionByZero := by
  have read := integers_carries carriesLeft carriesRight
  cases op with
  | div =>
      obtain rfl := List.mem_singleton.mp zero
      simp only [apply, div, read, if_true]
  | _ => contradiction

theorem apply_comparison {op : Operator} {holds : Int → Int → Bool}
    (compares : op.comparison? = some holds) (carriesLeft : left.Carries m)
    (carriesRight : right.Carries n) : apply op left right = .ok (.bool (holds m n)) := by
  have equal := equals_carries carriesLeft carriesRight
  cases op with
  | eq =>
      cases compares
      simp only [apply, equal]
      rfl
  | ne =>
      cases compares
      simp only [apply, equal, Except.map, decide_not]
  | lt | le | gt | ge =>
      cases compares
      rw [apply, ordered_carries carriesLeft carriesRight]
      refine congrArg (fun truth => Except.ok (Value.bool truth)) ?_
      rw [Bool.eq_iff_iff, decide_eq_true_iff]
      unfold compareOfLessAndEq
      split
      · simp
        omega
      · split
        · simp
          omega
        · simp
          omega
  | _ => cases compares

theorem apply_connective {op : Operator} {combine : Bool → Bool → Bool} {first second : Bool}
    (combines : op.connective? = some combine) :
    apply op (.bool first) (.bool second) = .ok (.bool (combine first second)) := by
  cases op <;> cases combines <;> cases first <;> cases second <;> rfl

end Arithmetic

end

end EtherCalc
