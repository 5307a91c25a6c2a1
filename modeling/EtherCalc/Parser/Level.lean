import EtherCalc.Expr
import EtherCalc.Token

namespace EtherCalc

/-!
How strongly the operators between two operands bind.  Operators of one level are applied from
left to right, and the operands of a level are chains of the next tighter one.
-/

inductive Level where
  | disjunction
  | conjunction
  | comparison
  | sum
  | product
deriving DecidableEq, Repr

namespace Level

/-- The next tighter level; the operands of a product are no chains. -/
def tighter? : Level → Option Level
  | .disjunction => some .conjunction
  | .conjunction => some .comparison
  | .comparison => some .sum
  | .sum => some .product
  | .product => none

/-- How many levels are tighter. -/
def height : Level → Nat
  | .disjunction => 4
  | .conjunction => 3
  | .comparison => 2
  | .sum => 1
  | .product => 0

theorem height_tighter {level next : Level} (isNext : level.tighter? = some next) :
    level.height = next.height + 1 := by
  cases level <;> cases isNext <;> rfl

def operator? : Level → Token → Option Operator
  | .disjunction, .mark .orOr => some .or
  | .conjunction, .mark .andAnd => some .and
  | .comparison, .mark .equal => some .eq
  | .comparison, .mark .notEqual => some .ne
  | .comparison, .mark .less => some .lt
  | .comparison, .mark .lessEqual => some .le
  | .comparison, .mark .greater => some .gt
  | .comparison, .mark .greaterEqual => some .ge
  | .sum, .mark .plus => some .add
  | .sum, .mark .minus => some .sub
  | .product, .mark .star => some .mul
  | .product, .mark .slash => some .div
  | _, _ => none

end Level

end EtherCalc
