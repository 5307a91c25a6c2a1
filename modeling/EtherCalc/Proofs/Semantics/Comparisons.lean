import EtherCalc.Proofs.Semantics.Operands
import Mathlib

/-!
The six comparisons of two values agree with each other.

There are three ways in which two values can be compared, whichever of them comes first: a value
next to an integer of any size is no integer, and every comparison fails for it; or the values have
an order, and all comparisons are read off it; or they have none, and can only be equal or not.
-/

namespace EtherCalc

/-- The errors have one cause, whatever it is that they name. -/
def EvalError.SameKind (error other : EvalError) : Prop :=
  error.ctorIdx = other.ctorIdx

namespace Operator

def orders : Operator → Bool
  | .lt | .le | .gt | .ge => true
  | _ => false

/-- The comparison that says the same of two values in the other order. -/
def mirror : Operator → Operator
  | .lt => .gt
  | .le => .ge
  | .gt => .lt
  | .ge => .le
  | op => op

/-- What a comparison says of two values that are ordered like this. -/
def accepts : Operator → Ordering → Bool
  | .eq, ordering => ordering == .eq
  | .ne, ordering => ordering != .eq
  | .lt, ordering => ordering == .lt
  | .le, ordering => ordering != .gt
  | .gt, ordering => ordering == .gt
  | .ge, ordering => ordering != .lt
  | _, _ => false

theorem compares_of_orders {op : Operator} (orders : op.orders = true) : op.compares = true := by
  cases op <;> first | rfl | contradiction

theorem accepts_mirror {op : Operator} {ordering : Ordering} :
    op.mirror.accepts ordering.swap = op.accepts ordering := by
  cases op <;> cases ordering <;> rfl

end Operator

/-- Two answers of comparisons are one truth value, or errors of one kind. -/
inductive AnswersAlike : Except EvalError Value → Except EvalError Value → Prop where
  | truth {truth : Bool} : AnswersAlike (.ok (.bool truth)) (.ok (.bool truth))
  | fault {error other : EvalError} (kind : error.SameKind other) :
      AnswersAlike (.error error) (.error other)

section

variable {value left right : Value} {m n : Int} {error : EvalError} {op : Operator}

theorem Value.identical_comm : right.identical left = left.identical right := by
  cases left <;> cases right <;> simp only [identical, Bool.beq_comm]

/-- No value but an integer of any size, which is compared as an integer, differs from itself. -/
theorem Value.identical_self (plain : Arithmetic.isBig value = false) :
    value.identical value = true := by
  cases value with
  | big => contradiction
  | _ => simp only [identical, beq_self_eq_true, Bool.and_self]

theorem Value.isInteger_iff : value.isInteger = true ↔ ∃ integer, value.Carries integer := by
  constructor
  · intro isInteger
    cases value with
    | int word => exact ⟨_, .int word⟩
    | big integer => exact ⟨_, .big integer⟩
    | _ => contradiction
  · rintro ⟨integer, carries⟩
    cases carries <;> rfl

theorem Value.isString_iff : value.isString = true ↔ ∃ text, value = .string text := by
  cases value <;> simp [isString]

/-- The order of two members of a linear order, whichever of them comes first. -/
theorem compareOfLessAndEq_mirrored {α : Type} [LinearOrder α] [DecidableLT α] [DecidableEq α]
    (first second : α) :
    compareOfLessAndEq second first = (compareOfLessAndEq first second).swap ∧
      (compareOfLessAndEq first second = .eq ↔ first = second) := by
  rcases lt_trichotomy first second with less | rfl | greater
  · simp [compareOfLessAndEq, less, less.not_gt, less.ne, less.ne']
  · simp [compareOfLessAndEq]
  · simp [compareOfLessAndEq, greater, greater.not_gt, greater.ne']

namespace Arithmetic

theorem isBig_iff : isBig value = true ↔ ∃ integer, value = .big integer := by
  cases value <;> simp [isBig]

/-- Next to an integer of any size only the other value can be at fault, on either side. -/
theorem integers_swap (big : (isBig left || isBig right) = true) :
    integers right left = (integers left right).map Prod.swap := by
  have known (integer : Int) : (Value.big integer).toInteger = .ok integer := rfl
  rcases Bool.or_eq_true_iff.mp big with isLeft | isRight
  · obtain ⟨m, rfl⟩ := isBig_iff.mp isLeft
    simp only [integers, known]
    cases right.toInteger <;> rfl
  · obtain ⟨n, rfl⟩ := isBig_iff.mp isRight
    simp only [integers, known]
    cases left.toInteger <;> rfl

/-- How the comparisons answer for two values, whichever of them comes first. -/
inductive Compared (left right : Value) : Prop where
  /-- One of the two is read as an integer, but is none. -/
  | unread {error : EvalError}
      (fails : ∀ op : Operator, op.compares = true → apply op left right = .error error)
      (failsBack : ∀ op : Operator, op.compares = true → apply op right left = .error error)
  | ranked {ordering : Ordering}
      (answers : ∀ op : Operator, op.compares = true →
        apply op left right = .ok (.bool (op.accepts ordering)))
      (answersBack : ∀ op : Operator, op.compares = true →
        apply op right left = .ok (.bool (op.accepts ordering.swap)))
  /-- The values have no order, and are equal if they are identical. -/
  | unordered
      (equal : apply .eq left right = .ok (.bool (left.identical right)))
      (equalBack : apply .eq right left = .ok (.bool (left.identical right)))
      (different : apply .ne left right = .ok (.bool !(left.identical right)))
      (fails : ∀ op : Operator, op.orders = true →
        apply op left right = .error (mismatch op.symbol left right))
      (failsBack : ∀ op : Operator, op.orders = true →
        apply op right left = .error (mismatch op.symbol right left))

theorem apply_of_compare {ordering : Ordering} (equal : equals left right = .ok (ordering == .eq))
    (ranks : ∀ symbol, compare symbol left right = .ok ordering) (comparison : op.compares = true) :
    apply op left right = .ok (.bool (op.accepts ordering)) := by
  cases op with
  | eq | ne =>
      rw [apply, equal]
      rfl
  | lt | le | gt | ge =>
      rw [apply, ordered, ranks]
      rfl
  | _ => contradiction

theorem apply_of_unread (unread : unify left right = .error error)
    (comparison : op.compares = true) : apply op left right = .error error := by
  cases op with
  | eq | ne =>
      rw [apply, equals, unread]
      rfl
  | lt | le | gt | ge =>
      rw [apply, ordered, compare, unread]
  | _ => contradiction

theorem apply_of_foreign (foreign : ∀ symbol, compare symbol left right =
    .error (mismatch symbol left right)) (orders : op.orders = true) :
    apply op left right = .error (mismatch op.symbol left right) := by
  cases op with
  | lt | le | gt | ge => rw [apply, ordered, foreign]
  | _ => contradiction

/-- Values that are compared like two members of a linear order. -/
theorem compared_of_order {α : Type} [LinearOrder α] [DecidableLT α] [DecidableEq α]
    {first second : α} (equal : equals left right = .ok (decide (first = second)))
    (equalBack : equals right left = .ok (decide (second = first)))
    (ranks : ∀ symbol, compare symbol left right = .ok (compareOfLessAndEq first second))
    (ranksBack : ∀ symbol, compare symbol right left = .ok (compareOfLessAndEq second first)) :
    Compared left right := by
  have same (first second : α) :
      decide (first = second) = (compareOfLessAndEq first second == .eq) := by
    rw [Bool.eq_iff_iff, decide_eq_true_iff, beq_iff_eq]
    exact (compareOfLessAndEq_mirrored first second).2.symm
  rw [same] at equal equalBack
  refine .ranked (fun op => apply_of_compare equal ranks) fun op comparison => ?_
  rw [apply_of_compare equalBack ranksBack comparison, (compareOfLessAndEq_mirrored first second).1]

theorem compared_big (big : (isBig left || isBig right) = true) : Compared left right := by
  have swap := integers_swap big
  have unified := unify_of_big big
  rw [Bool.or_comm] at big
  have unifiedBack := unify_of_big big
  rw [swap] at unifiedBack
  cases read : integers left right with
  | error error =>
      rw [read] at unified unifiedBack
      exact .unread (fun op => apply_of_unread unified) fun op => apply_of_unread unifiedBack
  | ok pair =>
      rw [read] at unified unifiedBack
      obtain ⟨m, n⟩ := pair
      have equal : equals left right = .ok (decide (m = n)) := by
        rw [equals, unified]
        rfl
      have equalBack : equals right left = .ok (decide (n = m)) := by
        rw [equals, unifiedBack]
        rfl
      refine compared_of_order equal equalBack (fun symbol => ?_) fun symbol => ?_
      · rw [compare, unified]
        rfl
      · rw [compare, unifiedBack]
        rfl

/-- The three ways are all that there are. -/
theorem compared (left right : Value) : Compared left right := by
  by_cases big : (isBig left || isBig right) = true
  · exact compared_big big
  have unified : unify left right = .ok (.plain left right) := if_neg big
  have unifiedBack : unify right left = .ok (.plain right left) := by
    rw [Bool.or_comm] at big
    exact if_neg big
  by_cases words : ∃ m n, left = .int m ∧ right = .int n
  · obtain ⟨m, n, rfl, rfl⟩ := words
    have first := Value.Carries.int m
    have second := Value.Carries.int n
    exact compared_of_order (equals_carries first second) (equals_carries second first)
      (fun symbol => compare_carries first second) fun symbol => compare_carries second first
  by_cases texts : ∃ first second, left = .string first ∧ right = .string second
  · obtain ⟨first, second, rfl, rfl⟩ := texts
    exact compared_of_order rfl rfl (fun symbol => rfl) fun symbol => rfl
  have back : ¬ ∃ m n, right = .int m ∧ left = .int n := fun ⟨m, n, isRight, isLeft⟩ =>
    words ⟨n, m, isLeft, isRight⟩
  have textsBack : ¬ ∃ first second, right = .string first ∧ left = .string second :=
    fun ⟨first, second, isRight, isLeft⟩ => texts ⟨second, first, isLeft, isRight⟩
  refine .unordered ?_ ?_ ?_ (fun op => apply_of_foreign fun symbol => ?_)
    fun op => apply_of_foreign fun symbol => ?_
  · rw [apply, equals, unified]
    rfl
  · rw [apply, equals, unifiedBack, ← Value.identical_comm]
    rfl
  · rw [apply, equals, unified]
    rfl
  · exact ((compare_foreign unified).resolve_left words).resolve_left texts
  · exact ((compare_foreign unifiedBack).resolve_left back).resolve_left textsBack

theorem eq_self (value : Value) : apply .eq value value = .ok (.bool true) := by
  cases big : isBig value with
  | true =>
      obtain ⟨integer, rfl⟩ := isBig_iff.mp big
      have carries := Value.Carries.big integer
      rw [apply, equals_carries carries carries, decide_eq_true rfl]
      rfl
  | false =>
      have unified : unify value value = .ok (.plain value value) := by
        rw [unify, big]
        rfl
      rw [apply, equals, unified, Except.map, Value.identical_self big]

theorem eq_swap : apply .eq right left = apply .eq left right := by
  cases compared left right with
  | unread fails failsBack => rw [fails .eq rfl, failsBack .eq rfl]
  | @ranked ordering answers answersBack =>
      have same : Operator.eq.accepts ordering.swap = Operator.eq.accepts ordering :=
        @Operator.accepts_mirror .eq ordering
      rw [answers .eq rfl, answersBack .eq rfl, same]
  | unordered equal equalBack => rw [equal, equalBack]

/-- Two values differ if they are not equal, and there is one error for both questions. -/
theorem ne_of_eq :
    (∃ truth, apply .eq left right = .ok (.bool truth) ∧ apply .ne left right = .ok (.bool !truth)) ∨
      ∃ error, apply .eq left right = .error error ∧ apply .ne left right = .error error := by
  cases compared left right with
  | unread fails _ => exact .inr ⟨_, fails .eq rfl, fails .ne rfl⟩
  | ranked answers _ => exact .inl ⟨_, answers .eq rfl, answers .ne rfl⟩
  | unordered equal _ different => exact .inl ⟨_, equal, different⟩

theorem orders_mirror (orders : op.orders = true) : op.mirror.orders = true := by
  cases op <;> first | rfl | contradiction

theorem apply_mirror (orders : op.orders = true) :
    AnswersAlike (apply op left right) (apply op.mirror right left) := by
  have comparison := Operator.compares_of_orders orders
  have comparisonBack := Operator.compares_of_orders (orders_mirror orders)
  cases compared left right with
  | unread fails failsBack =>
      rw [fails op comparison, failsBack op.mirror comparisonBack]
      exact .fault rfl
  | ranked answers answersBack =>
      rw [answers op comparison, answersBack op.mirror comparisonBack, Operator.accepts_mirror]
      exact .truth
  | unordered _ _ _ fails failsBack =>
      rw [fails op orders, failsBack op.mirror (orders_mirror orders)]
      exact .fault rfl

/-- Where one ordering has an answer, exactly one of less, equal and greater holds, and all six
comparisons say which. -/
theorem orders_trichotomy (orders : op.orders = true) (done : apply op left right = .ok value) :
    ∃ less equal greater : Bool, [less, equal, greater].count true = 1 ∧
      apply .lt left right = .ok (.bool less) ∧ apply .eq left right = .ok (.bool equal) ∧
      apply .gt left right = .ok (.bool greater) ∧
      apply .le left right = .ok (.bool !greater) ∧ apply .ge left right = .ok (.bool !less) := by
  cases compared left right with
  | unread fails _ => cases done.symm.trans (fails op (Operator.compares_of_orders orders))
  | @ranked ordering answers _ =>
      refine ⟨_, _, _, ?_, answers .lt rfl, answers .eq rfl, answers .gt rfl, answers .le rfl,
        answers .ge rfl⟩
      cases ordering <;> rfl
  | unordered _ _ _ fails _ => cases done.symm.trans (fails op orders)

theorem orders_fails (orders : op.orders = true) (failed : apply .eq left right = .error error) :
    apply op left right = .error error := by
  cases compared left right with
  | unread fails _ =>
      rw [← failed, fails .eq rfl]
      exact fails op (Operator.compares_of_orders orders)
  | ranked answers _ => cases failed.symm.trans (answers .eq rfl)
  | unordered equal _ _ _ _ => cases failed.symm.trans equal

theorem lt_integers (first : left.Carries m) (second : right.Carries n) :
    apply .lt left right = .ok (.bool true) ↔ m < n := by
  rw [apply_comparison rfl first second, Except.ok.injEq, Value.bool.injEq, decide_eq_true_iff]

theorem lt_texts {first second : String} :
    apply .lt (.string first) (.string second) = .ok (.bool true) ↔ first < second := by
  obtain ⟨truth, applied, holds⟩ := @apply_texts .lt first second rfl
  rw [Operator.holds_codePoints] at holds
  rw [applied, Except.ok.injEq, Value.bool.injEq]
  exact holds

/-- Integers of either width are ordered, and so are texts. -/
theorem less_trans {first second third : Value}
    (alike : (∀ value ∈ [first, second, third], value.isInteger = true) ∨
      ∀ value ∈ [first, second, third], value.isString = true)
    (less : apply .lt first second = .ok (.bool true))
    (lessToo : apply .lt second third = .ok (.bool true)) :
    apply .lt first third = .ok (.bool true) := by
  simp only [List.forall_mem_cons, List.not_mem_nil, false_implies, implies_true, and_true,
    Value.isInteger_iff, Value.isString_iff] at alike
  rcases alike with ⟨⟨m, carries⟩, ⟨n, carriesToo⟩, k, carriesLast⟩ | ⟨⟨_, rfl⟩, ⟨_, rfl⟩, _, rfl⟩
  · rw [lt_integers carries carriesToo] at less
    rw [lt_integers carriesToo carriesLast] at lessToo
    exact (lt_integers carries carriesLast).mpr (less.trans lessToo)
  · rw [lt_texts] at less lessToo ⊢
    exact less.trans lessToo

/-- Equality is reflexive and symmetric, and its negation is its negation.  An ordering says the
same as its mirror image.  Where one of the orderings has an answer all comparisons have, and they
say which one of less, equal and greater holds; where equality fails they fail with its error.
Integers are ordered, of whichever width, and so are texts. -/
theorem comparisons_coherent :
    (∀ value, apply .eq value value = .ok (.bool true)) ∧
    (∀ left right, apply .eq right left = apply .eq left right) ∧
    (∀ left right,
      (∃ truth, apply .eq left right = .ok (.bool truth) ∧
        apply .ne left right = .ok (.bool !truth)) ∨
      ∃ error, apply .eq left right = .error error ∧ apply .ne left right = .error error) ∧
    (∀ op : Operator, op.orders = true → ∀ left right,
      AnswersAlike (apply op left right) (apply op.mirror right left)) ∧
    (∀ op : Operator, op.orders = true → ∀ left right value, apply op left right = .ok value →
      ∃ less equal greater : Bool, [less, equal, greater].count true = 1 ∧
        apply .lt left right = .ok (.bool less) ∧ apply .eq left right = .ok (.bool equal) ∧
        apply .gt left right = .ok (.bool greater) ∧
        apply .le left right = .ok (.bool !greater) ∧
        apply .ge left right = .ok (.bool !less)) ∧
    (∀ op : Operator, op.orders = true → ∀ left right error,
      apply .eq left right = .error error → apply op left right = .error error) ∧
    ∀ first second third : Value,
      ((∀ value ∈ [first, second, third], value.isInteger = true) ∨
        ∀ value ∈ [first, second, third], value.isString = true) →
      apply .lt first second = .ok (.bool true) → apply .lt second third = .ok (.bool true) →
        apply .lt first third = .ok (.bool true) := by
  refine ⟨eq_self, ?_, ?_, ?_, ?_, ?_, ?_⟩
  · intro left right
    exact eq_swap
  · intro left right
    exact ne_of_eq
  · intro op orders left right
    exact apply_mirror orders
  · intro op orders left right value done
    exact orders_trichotomy orders done
  · intro op orders left right error failed
    exact orders_fails orders failed
  · intro first second third alike less lessToo
    exact less_trans alike less lessToo

/-- A text that spells an integer comes before a larger one; next to an integer a text that spells
none is neither equal nor larger; and an integer of any size stands between two words. -/
theorem comparisons_coherent_numeral :
    let numeral : Value := .string "0x10"
    let word : Value := .string "x"
    apply .lt numeral (.big 17) = .ok (.bool true) ∧
      AnswersAlike (apply .lt numeral (.big 17)) (apply .gt (.big 17) numeral) ∧
      (∃ less equal greater : Bool, [less, equal, greater].count true = 1 ∧
        apply .lt numeral (.big 17) = .ok (.bool less) ∧
        apply .eq numeral (.big 17) = .ok (.bool equal) ∧
        apply .gt numeral (.big 17) = .ok (.bool greater) ∧
        apply .le numeral (.big 17) = .ok (.bool !greater) ∧
        apply .ge numeral (.big 17) = .ok (.bool !less)) ∧
      apply .eq (.big 1) word = .error (.invalidNumeral "x") ∧
      apply .ge (.big 1) word = .error (.invalidNumeral "x") ∧
      apply .lt (.int (-1)) (.big 2) = .ok (.bool true) ∧
      apply .lt (.big 2) (.int 3) = .ok (.bool true) ∧
      apply .lt (.int (-1)) (.int 3) = .ok (.bool true) := by
  intro numeral word
  obtain ⟨_, _, _, mirrored, decided, refused, ordered⟩ := comparisons_coherent
  have less : apply .lt numeral (.big 17) = .ok (.bool true) := by cbv
  have failed : apply .eq (.big 1) word = .error (.invalidNumeral "x") := by cbv
  have below : apply .lt (.int (-1)) (.big 2) = .ok (.bool true) := by cbv
  have above : apply .lt (.big 2) (.int 3) = .ok (.bool true) := by cbv
  have integers : ∀ value ∈ [Value.int (-1), .big 2, .int 3], value.isInteger = true := by
    simp [Value.isInteger]
  exact ⟨less, mirrored .lt rfl numeral (.big 17), decided .lt rfl numeral (.big 17) _ less, failed,
    refused .ge rfl (.big 1) word _ failed, below, above,
    ordered _ _ _ (.inl integers) below above⟩

end Arithmetic

end

end EtherCalc
