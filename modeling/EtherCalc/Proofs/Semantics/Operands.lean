import EtherCalc.Proofs.Semantics.Integers

namespace EtherCalc

/-- The value is the integer, as a word if there is one for it. -/
inductive Value.Shortest : Value → Int → Prop where
  | word (word : Int64) : Shortest (.int word) word.toInt
  | big {integer : Int} (wide : ∀ word : Int64, word.toInt ≠ integer) :
      Shortest (.big integer) integer

def codePoints (text : String) : List Nat :=
  text.toList.map Char.toNat

namespace Operator

def compares : Operator → Bool
  | .eq | .ne | .lt | .le | .gt | .ge => true
  | _ => false

/-- What a comparison says of two members of an order. -/
def Holds {α : Type} [LT α] (op : Operator) (left right : α) : Prop :=
  match op with
  | .eq => left = right
  | .ne => left ≠ right
  | .lt => left < right
  | .le => left < right ∨ left = right
  | .gt => right < left
  | .ge => right < left ∨ left = right
  | _ => False

/-- The operator reads its operands as integers. -/
def ReadsIntegers (op : Operator) (left right : Value) : Prop :=
  op = .mul ∨ op = .div ∨ (∃ integer, left = .big integer) ∨ ∃ integer, right = .big integer

/-- The value that the operator has for two integers.  A quotient leaves a rest that is smaller than
the divisor and has the sign of the dividend, so there is none for a divisor of zero. -/
inductive OfIntegers : Operator → Int → Int → Value → Prop where
  | sum {m n : Int} : OfIntegers .add m n (.big (m + n))
  | difference {m n : Int} : OfIntegers .sub m n (.big (m - n))
  | product {m n : Int} : OfIntegers .mul m n (.big (m * n))
  | quotient {m n quotient rest : Int} (division : m = quotient * n + rest)
      (small : rest.natAbs < n.natAbs) (sign : rest = 0 ∨ rest.sign = m.sign) :
      OfIntegers .div m n (.big quotient)
  | truth {op : Operator} {m n : Int} {truth : Bool} (comparison : op.compares = true)
      (holds : truth = true ↔ op.Holds m n) : OfIntegers op m n (.bool truth)

/-- The value that the operator has for two operands that it takes as they are. -/
inductive OfPlain : Operator → Value → Value → Value → Prop where
  | sum {m n : Int64} {value : Value} (shortest : value.Shortest (m.toInt + n.toInt)) :
      OfPlain .add (.int m) (.int n) value
  | difference {m n : Int64} {value : Value} (shortest : value.Shortest (m.toInt - n.toInt)) :
      OfPlain .sub (.int m) (.int n) value
  | joined {left right : String} :
      OfPlain .add (.string left) (.string right) (.string (left ++ right))
  | words {op : Operator} {m n : Int64} {truth : Bool} (comparison : op.compares = true)
      (holds : truth = true ↔ op.Holds m.toInt n.toInt) :
      OfPlain op (.int m) (.int n) (.bool truth)
  | texts {op : Operator} {left right : String} {truth : Bool} (comparison : op.compares = true)
      (holds : truth = true ↔ op.Holds (codePoints left) (codePoints right)) :
      OfPlain op (.string left) (.string right) (.bool truth)
  | equal {left right : Value} : OfPlain .eq left right (.bool (left.identical right))
  | different {left right : Value} : OfPlain .ne left right (.bool !(left.identical right))

/-- What the operator makes of two operands.  Where it reads integers, the first operand that is
none of one is at fault; where it does not, operands without a value have no meaning for it. -/
inductive Gives (op : Operator) (left right : Value) : Except EvalError Value → Prop where
  | integers {m n : Int} {value : Value} (reads : op.ReadsIntegers left right)
      (first : left.toInteger = .ok m) (second : right.toInteger = .ok n)
      (gives : op.OfIntegers m n value) : Gives op left right (.ok value)
  | zero {m : Int} (divides : op = .div) (first : left.toInteger = .ok m)
      (second : right.toInteger = .ok 0) : Gives op left right (.error .divisionByZero)
  | left {error : EvalError} (reads : op.ReadsIntegers left right)
      (first : left.toInteger = .error error) : Gives op left right (.error error)
  | right {m : Int} {error : EvalError} (reads : op.ReadsIntegers left right)
      (first : left.toInteger = .ok m) (second : right.toInteger = .error error) :
      Gives op left right (.error error)
  | plain {value : Value} (taken : ¬ op.ReadsIntegers left right)
      (gives : op.OfPlain left right value) : Gives op left right (.ok value)
  | foreign (taken : ¬ op.ReadsIntegers left right)
      (none : ∀ value, ¬ op.OfPlain left right value) :
      Gives op left right
        (.error (.type (.operands op.symbol left.typeName right.typeName)))

end Operator

section

variable {value left right : Value} {m n : Int} {op : Operator} {error : EvalError}

theorem Value.shortest_iff : value.Shortest n ↔ Integer.toValue n = value := by
  constructor
  · intro shortest
    cases shortest with
    | word word => rw [Integer.toValue, Integer.narrow?_toInt]
    | big wide =>
        cases narrowed : Integer.narrow? n with
        | none => simp only [Integer.toValue, narrowed]
        | some word => exact absurd (Integer.toInt_of_narrow? narrowed) (wide word)
  · rintro rfl
    cases narrowed : Integer.narrow? n with
    | none =>
        simp only [Integer.toValue, narrowed]
        refine .big fun word same => ?_
        subst same
        cases narrowed.symm.trans Integer.narrow?_toInt
    | some word =>
        simp only [Integer.toValue, narrowed]
        have same := Integer.toInt_of_narrow? narrowed
        subst same
        exact .word word

theorem codePoints_inj {first second : String} :
    codePoints first = codePoints second ↔ first = second := by
  have injective : Function.Injective Char.toNat := fun c d => Char.toNat_inj.mp
  rw [codePoints, codePoints, injective.list_map.eq_iff, String.toList_inj]

theorem map_toNat_lt {first second : List Char} :
    first.map Char.toNat < second.map Char.toNat ↔ first < second := by
  induction first generalizing second with
  | nil => cases second <;> simp
  | cons c first ih =>
      cases second with
      | nil => simp
      | cons d second =>
          simp only [List.map_cons, List.cons_lt_cons_iff, ih, Char.toNat_inj]
          exact Iff.rfl

theorem codePoints_lt {first second : String} :
    codePoints first < codePoints second ↔ first < second := by
  rw [String.lt_iff_toList_lt, codePoints, codePoints, map_toNat_lt]

theorem Operator.holds_codePoints {first second : String} :
    op.Holds (codePoints first) (codePoints second) ↔ op.Holds first second := by
  cases op <;> simp only [Holds, codePoints_lt, codePoints_inj, ne_eq]

/-- Two integers on one side of zero are less far apart than a bound for both. -/
theorem natAbs_sub_lt {first second side : Int} {bound : Nat} (small : first.natAbs < bound)
    (smallToo : second.natAbs < bound) (sign : first = 0 ∨ first.sign = side)
    (signToo : second = 0 ∨ second.sign = side) : (first - second).natAbs < bound := by
  rcases sign with rfl | sign
  · omega
  · rcases signToo with rfl | signToo
    · omega
    · have same : first.sign = second.sign := sign.trans signToo.symm
      have positive : 0 < first ↔ 0 < second := by
        rw [← Int.sign_eq_one_iff_pos, same, Int.sign_eq_one_iff_pos]
      have negative : first < 0 ↔ second < 0 := by
        rw [← Int.sign_eq_neg_one_iff_neg, same, Int.sign_eq_neg_one_iff_neg]
      omega

/-- What division leaves determines the quotient, and there is one unless the divisor is zero. -/
theorem tdiv_eq_iff {quotient : Int} :
    (∃ rest : Int, m = quotient * n + rest ∧ rest.natAbs < n.natAbs ∧
      (rest = 0 ∨ rest.sign = m.sign)) ↔ n ≠ 0 ∧ m.tdiv n = quotient := by
  have whole : n * m.tdiv n + m.tmod n = m := Int.mul_tdiv_add_tmod m n
  have sign : m.tmod n = 0 ∨ (m.tmod n).sign = m.sign := by
    rw [← Int.sign_eq_zero_iff_zero, Int.sign_tmod]
    split <;> simp
  constructor
  · rintro ⟨rest, division, small, signToo⟩
    have some : n ≠ 0 := by
      rintro rfl
      simp at small
    have smaller : (m.tmod n).natAbs < n.natAbs := by
      rw [Int.natAbs_tmod]
      exact Nat.mod_lt _ (Int.natAbs_pos.mpr some)
    -- The two rests differ by a multiple of the divisor, but by less than it.
    have divides : n ∣ rest - m.tmod n := by
      refine ⟨m.tdiv n - quotient, ?_⟩
      rw [mul_sub, mul_comm n quotient]
      omega
    have same : rest - m.tmod n = 0 :=
      Int.eq_zero_of_dvd_of_natAbs_lt_natAbs divides (natAbs_sub_lt small smaller signToo sign)
    refine ⟨some, ?_⟩
    have times : n * m.tdiv n = n * quotient := by
      rw [mul_comm n quotient]
      omega
    exact mul_left_cancel₀ some times
  · rintro ⟨some, rfl⟩
    refine ⟨m.tmod n, ?_, ?_, sign⟩
    · rw [mul_comm, whole]
    · rw [Int.natAbs_tmod]
      exact Nat.mod_lt _ (Int.natAbs_pos.mpr some)

namespace Arithmetic

theorem integers_eq_ok : integers left right = .ok (m, n) ↔
    left.toInteger = .ok m ∧ right.toInteger = .ok n := by
  unfold integers
  cases left.toInteger <;> cases right.toInteger <;> simp

theorem integers_eq_error : integers left right = .error error ↔
    left.toInteger = .error error ∨ ∃ m, left.toInteger = .ok m ∧ right.toInteger = .error error := by
  unfold integers
  cases left.toInteger <;> cases right.toInteger <;> simp

theorem unify_of_big (big : (isBig left || isBig right) = true) :
    unify left right = (integers left right).map fun pair => .integers pair.1 pair.2 := by
  rw [unify, if_pos big]
  cases integers left right <;> rfl

/-- Where the operator reads integers, it makes of its operands what it makes of those. -/
theorem apply_reads (reads : op.ReadsIntegers left right) (operates : op ≠ .and ∧ op ≠ .or) :
    apply op left right =
      (integers left right).bind fun pair => apply op (.big pair.1) (.big pair.2) := by
  -- Products and quotients do not ask `unify`, since they read integers in any case.
  have unified : op = .mul ∨ op = .div ∨
      unify left right = (integers left right).map fun pair => .integers pair.1 pair.2 := by
    rcases reads with isMul | isDiv | ⟨integer, rfl⟩ | ⟨integer, rfl⟩
    · exact .inl isMul
    · exact .inr (.inl isDiv)
    · exact .inr (.inr (unify_of_big rfl))
    · exact .inr (.inr (unify_of_big (Bool.or_true _)))
  cases op with
  | and => exact absurd rfl operates.1
  | or => exact absurd rfl operates.2
  | mul =>
      rw [apply, mul]
      cases integers left right <;> rfl
  | div =>
      rw [apply, div]
      cases integers left right <;> rfl
  | add | sub | eq | ne | lt | le | gt | ge =>
      have unified := (unified.resolve_left (by decide)).resolve_left (by decide)
      simp only [apply, add, sub, equals, ordered, compare, unified]
      cases integers left right <;> rfl

theorem apply_compares (comparison : op.compares = true) (carriesLeft : left.Carries m)
    (carriesRight : right.Carries n) :
    ∃ truth, apply op left right = .ok (.bool truth) ∧ (truth = true ↔ op.Holds m n) := by
  cases op with
  | eq | ne | lt | gt =>
      exact ⟨_, apply_comparison rfl carriesLeft carriesRight, decide_eq_true_iff⟩
  | le =>
      refine ⟨_, apply_comparison rfl carriesLeft carriesRight, ?_⟩
      rw [decide_eq_true_iff]
      exact Int.le_iff_lt_or_eq
  | ge =>
      refine ⟨_, apply_comparison rfl carriesLeft carriesRight, ?_⟩
      rw [decide_eq_true_iff, Operator.Holds, @eq_comm _ m]
      exact Int.le_iff_lt_or_eq
  | _ => contradiction

theorem compare_texts (first second : String) :
    first < second ∧ compareOfLessAndEq first second = .lt ∨
      first = second ∧ compareOfLessAndEq first second = .eq ∨
      second < first ∧ compareOfLessAndEq first second = .gt := by
  rcases lt_trichotomy first second with less | rfl | greater
  · exact .inl ⟨less, if_pos less⟩
  · exact .inr (.inl ⟨rfl, by simp [compareOfLessAndEq]⟩)
  · exact .inr (.inr ⟨greater, by simp [compareOfLessAndEq, greater.not_gt, greater.ne']⟩)

theorem apply_texts {first second : String} (comparison : op.compares = true) :
    ∃ truth, apply op (.string first) (.string second) = .ok (.bool truth) ∧
      (truth = true ↔ op.Holds (codePoints first) (codePoints second)) := by
  simp only [Operator.holds_codePoints]
  cases op with
  | eq => exact ⟨_, rfl, beq_iff_eq⟩
  | ne => exact ⟨_, rfl, bne_iff_ne⟩
  | lt | le | gt | ge =>
      refine ⟨_, rfl, ?_⟩
      rcases compare_texts first second with ⟨less, same⟩ | ⟨rfl, same⟩ | ⟨greater, same⟩
      · simp [Operator.Holds, same, less, less.not_gt, less.ne]
      · simp [Operator.Holds, same]
      · simp [Operator.Holds, same, greater, greater.not_gt, greater.ne']
  | _ => contradiction

theorem compare_foreign {symbol : String} (plain : unify left right = .ok (.plain left right)) :
    (∃ m n, left = .int m ∧ right = .int n) ∨
      (∃ first second, left = .string first ∧ right = .string second) ∨
      compare symbol left right = .error (mismatch symbol left right) := by
  rw [compare, plain]
  cases left <;> cases right <;> simp

/-- Operands that are taken as they are have a meaning for an operator that is not an equality if
both are words, or if both are texts and it is not the difference. -/
theorem apply_foreign (plain : unify left right = .ok (.plain left right))
    (operates : op ≠ .and ∧ op ≠ .or) (other : op ≠ .mul ∧ op ≠ .div ∧ op ≠ .eq ∧ op ≠ .ne) :
    (∃ m n, left = .int m ∧ right = .int n) ∨
      (op ≠ .sub ∧ ∃ first second, left = .string first ∧ right = .string second) ∨
      apply op left right = .error (mismatch op.symbol left right) := by
  cases op with
  | add =>
      rw [apply, add, plain]
      cases left <;> cases right <;> simp [Operator.symbol]
  | sub =>
      rw [apply, sub, plain]
      cases left <;> cases right <;> simp [Operator.symbol]
  | lt | le | gt | ge =>
      rw [apply, ordered]
      rcases compare_foreign plain with words | texts | foreign
      · exact .inl words
      · exact .inr (.inl ⟨by decide, texts⟩)
      · rw [foreign]
        exact .inr (.inr rfl)
  | _ => simp at operates other

theorem unify_plain (taken : ¬ op.ReadsIntegers left right) :
    unify left right = .ok (.plain left right) := by
  have neither : (isBig left || isBig right) = false := by
    rw [Bool.or_eq_false_iff]
    constructor
    · cases left with
      | big integer => exact absurd (.inr (.inr (.inl ⟨integer, rfl⟩))) taken
      | _ => rfl
    · cases right with
      | big integer => exact absurd (.inr (.inr (.inr ⟨integer, rfl⟩))) taken
      | _ => rfl
  rw [unify, neither]
  rfl

theorem apply_ofIntegers (gives : op.OfIntegers m n value) :
    apply op (.big m) (.big n) = .ok value := by
  cases gives with
  | sum | difference | product => rfl
  | quotient division small sign =>
      obtain ⟨some, rfl⟩ := tdiv_eq_iff.mp ⟨_, division, small, sign⟩
      simp only [apply, div, integers, Value.toInteger, if_neg some]
  | truth comparison holds =>
      obtain ⟨truth, applied, same⟩ := apply_compares comparison (.big m) (.big n)
      rw [applied, Bool.eq_iff_iff.mpr (same.trans holds.symm)]

/-- Two integers have a value for the operator, unless it divides by zero. -/
theorem ofIntegers_or_zero (operates : op ≠ .and ∧ op ≠ .or) :
    (∃ value, op.OfIntegers m n value) ∨ op = .div ∧ n = 0 := by
  classical
  cases op with
  | add => exact .inl ⟨_, .sum⟩
  | sub => exact .inl ⟨_, .difference⟩
  | mul => exact .inl ⟨_, .product⟩
  | div =>
      by_cases zero : n = 0
      · exact .inr ⟨rfl, zero⟩
      · obtain ⟨rest, division, small, sign⟩ := tdiv_eq_iff.mpr ⟨zero, rfl⟩
        exact .inl ⟨_, .quotient division small sign⟩
  | eq | ne | lt | le | gt | ge =>
      exact .inl ⟨_, .truth rfl decide_eq_true_iff⟩
  | and => exact absurd rfl operates.1
  | or => exact absurd rfl operates.2

theorem apply_ofPlain (taken : ¬ op.ReadsIntegers left right)
    (gives : op.OfPlain left right value) : apply op left right = .ok value := by
  cases gives with
  | sum shortest =>
      rw [← Value.shortest_iff.mp shortest]
      rfl
  | difference shortest =>
      rw [← Value.shortest_iff.mp shortest]
      rfl
  | joined => rfl
  | words comparison holds =>
      obtain ⟨truth, applied, same⟩ := apply_compares comparison (.int _) (.int _)
      rw [applied, Bool.eq_iff_iff.mpr (same.trans holds.symm)]
  | texts comparison holds =>
      obtain ⟨truth, applied, same⟩ := apply_texts comparison
      rw [applied, Bool.eq_iff_iff.mpr (same.trans holds.symm)]
  | equal | different =>
      rw [apply, equals, unify_plain taken]
      rfl

theorem ofPlain_or_foreign (operates : op ≠ .and ∧ op ≠ .or)
    (taken : ¬ op.ReadsIntegers left right) :
    (∃ value, op.OfPlain left right value) ∨
      apply op left right = .error (mismatch op.symbol left right) := by
  classical
  by_cases equality : op = .eq ∨ op = .ne
  · rcases equality with rfl | rfl
    · exact .inl ⟨_, .equal⟩
    · exact .inl ⟨_, .different⟩
  have other : op ≠ .mul ∧ op ≠ .div ∧ op ≠ .eq ∧ op ≠ .ne := by
    refine ⟨fun isMul => taken (.inl isMul), fun isDiv => taken (.inr (.inl isDiv)), ?_⟩
    exact not_or.mp equality
  rcases apply_foreign (unify_plain taken) operates other with
    ⟨m, n, rfl, rfl⟩ | ⟨some, first, second, rfl, rfl⟩ | foreign
  · cases op with
    | add => exact .inl ⟨_, .sum (Value.shortest_iff.mpr rfl)⟩
    | sub => exact .inl ⟨_, .difference (Value.shortest_iff.mpr rfl)⟩
    | lt | le | gt | ge =>
        exact .inl ⟨_, .words rfl decide_eq_true_iff⟩
    | _ => simp at operates other
  · cases op with
    | add => exact .inl ⟨_, .joined⟩
    | sub => exact absurd rfl some
    | lt | le | gt | ge =>
        exact .inl ⟨_, .texts rfl decide_eq_true_iff⟩
    | _ => simp at operates other
  · exact .inr foreign

theorem apply_gives (operates : op ≠ .and ∧ op ≠ .or) :
    op.Gives left right (apply op left right) := by
  by_cases reads : op.ReadsIntegers left right
  · rw [apply_reads reads operates]
    cases read : integers left right with
    | error error =>
        rcases integers_eq_error.mp read with first | ⟨m, first, second⟩
        · exact .left reads first
        · exact .right reads first second
    | ok pair =>
        obtain ⟨first, second⟩ := integers_eq_ok.mp read
        show op.Gives left right (apply op (.big pair.1) (.big pair.2))
        rcases ofIntegers_or_zero operates with ⟨value, gives⟩ | ⟨divides, zero⟩
        · rw [apply_ofIntegers gives]
          exact .integers reads first second gives
        · subst divides
          rw [zero] at second ⊢
          exact .zero rfl first second
  · rcases ofPlain_or_foreign operates reads with ⟨value, gives⟩ | foreign
    · rw [apply_ofPlain reads gives]
      exact .plain reads gives
    · rw [foreign]
      refine .foreign reads fun value gives => ?_
      cases foreign.symm.trans (apply_ofPlain reads gives)

theorem apply_of_gives {outcome : Except EvalError Value} (operates : op ≠ .and ∧ op ≠ .or)
    (gives : op.Gives left right outcome) : apply op left right = outcome := by
  cases gives with
  | integers reads first second gives =>
      rw [apply_reads reads operates, integers_eq_ok.mpr ⟨first, second⟩]
      exact apply_ofIntegers gives
  | zero divides first second =>
      subst divides
      rw [apply, div, integers_eq_ok.mpr ⟨first, second⟩]
      rfl
  | left reads first =>
      rw [apply_reads reads operates, integers_eq_error.mpr (.inl first)]
      rfl
  | right reads first second =>
      rw [apply_reads reads operates, integers_eq_error.mpr (.inr ⟨_, first, second⟩)]
      rfl
  | plain taken gives => exact apply_ofPlain taken gives
  | foreign taken none =>
      rcases ofPlain_or_foreign operates taken with ⟨value, gives⟩ | foreign
      · exact absurd gives (none value)
      · exact foreign

/-- The operators that do not choose one of their operands make of any two values what the rule
gives, and nothing else. -/
theorem apply_iff_gives {outcome : Except EvalError Value} (operates : op ≠ .and ∧ op ≠ .or) :
    apply op left right = outcome ↔ op.Gives left right outcome := by
  constructor
  · rintro rfl
    exact apply_gives operates
  · exact apply_of_gives operates

/-- A negative text is divided by a word, and one word too many is added to the largest. -/
theorem quotient_and_sum_given :
    apply .div (.string "-0x7") (.int 2) = .ok (.big (-3)) ∧
      apply .add (.int Int64.maxValue) (.int 1) = .ok (.big 9223372036854775808) := by
  have wide : Value.Shortest (.big 9223372036854775808) 9223372036854775808 := by
    refine .big fun word same => ?_
    have below := Int64.toInt_lt word
    omega
  constructor
  · have division : (-7 : Int) = -3 * 2 + -1 := by decide
    refine (apply_iff_gives (by decide)).mpr ?_
    exact .integers (.inr (.inl rfl)) (by decide) (by decide)
      (.quotient division (by decide) (by decide))
  · refine (apply_iff_gives (by decide)).mpr (.plain ?_ (.sum wide))
    simp [Operator.ReadsIntegers]

end Arithmetic

end

end EtherCalc
