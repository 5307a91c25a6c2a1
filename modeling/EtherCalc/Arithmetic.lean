import EtherCalc.Expr
import EtherCalc.Integer
import EtherCalc.Value.Equality

namespace EtherCalc

/-!
What the operators do with the values of their operands.

Two operands are brought together by `unify`: if either is an integer of any size, both are
read as integers, and else they stay as they are.  Products and quotients are always taken of
integers.  `and` and `or` choose one of the operands and return it unchanged.
-/

namespace Arithmetic

inductive Operands where
  | integers (left right : Int)
  | plain (left right : Value)

def isBig : Value → Bool
  | .big _ => true
  | _ => false

/-- Reads two values as integers, the left one first. -/
def integers (left right : Value) : Except EvalError (Int × Int) :=
  match left.toInteger with
  | .error error => .error error
  | .ok leftInteger =>
      match right.toInteger with
      | .error error => .error error
      | .ok rightInteger => .ok (leftInteger, rightInteger)

def unify (left right : Value) : Except EvalError Operands :=
  if isBig left || isBig right then
    match integers left right with
    | .error error => .error error
    | .ok (leftInteger, rightInteger) => .ok (.integers leftInteger rightInteger)
  else .ok (.plain left right)

/-- The fault of an operator that has no meaning for its operands. -/
def mismatch (symbol : String) (left right : Value) : EvalError :=
  .type (.operands symbol left.typeName right.typeName)

def add (left right : Value) : Except EvalError Value :=
  match unify left right with
  | .error error => .error error
  | .ok (.integers left right) => .ok (.big (left + right))
  | .ok (.plain (.int left) (.int right)) => .ok (Integer.toValue (left.toInt + right.toInt))
  | .ok (.plain (.string left) (.string right)) => .ok (.string (left ++ right))
  | .ok (.plain left right) => .error (mismatch "+" left right)

def sub (left right : Value) : Except EvalError Value :=
  match unify left right with
  | .error error => .error error
  | .ok (.integers left right) => .ok (.big (left - right))
  | .ok (.plain (.int left) (.int right)) => .ok (Integer.toValue (left.toInt - right.toInt))
  | .ok (.plain left right) => .error (mismatch "-" left right)

def mul (left right : Value) : Except EvalError Value :=
  match integers left right with
  | .error error => .error error
  | .ok (left, right) => .ok (.big (left * right))

/-- Division rounds toward zero. -/
def div (left right : Value) : Except EvalError Value :=
  match integers left right with
  | .error error => .error error
  | .ok (left, right) =>
      if right = 0 then .error .divisionByZero else .ok (.big (Int.tdiv left right))

/-- Which of two values comes first.  Strings are ordered by code points. -/
def compare (symbol : String) (left right : Value) : Except EvalError Ordering :=
  match unify left right with
  | .error error => .error error
  | .ok (.integers left right) => .ok (compareOfLessAndEq left right)
  | .ok (.plain (.int left) (.int right)) => .ok (compareOfLessAndEq left.toInt right.toInt)
  | .ok (.plain (.string left) (.string right)) => .ok (compareOfLessAndEq left right)
  | .ok (.plain left right) => .error (mismatch symbol left right)

def equals (left right : Value) : Except EvalError Bool :=
  match unify left right with
  | .error error => .error error
  | .ok (.integers left right) => .ok (left == right)
  | .ok (.plain left right) => .ok (left.identical right)

def ordered (op : Operator) (left right : Value) (holds : Ordering → Bool) :
    Except EvalError Value :=
  match compare op.symbol left right with
  | .error error => .error error
  | .ok ordering => .ok (.bool (holds ordering))

def apply (op : Operator) (left right : Value) : Except EvalError Value :=
  match op with
  | .add => add left right
  | .sub => sub left right
  | .mul => mul left right
  | .div => div left right
  | .and => .ok (if left.isTruthy then right else left)
  | .or => .ok (if left.isTruthy then left else right)
  | .eq => (equals left right).map .bool
  | .ne => (equals left right).map fun equal => .bool !equal
  | .lt => ordered op left right (· == .lt)
  | .le => ordered op left right (· != .gt)
  | .gt => ordered op left right (· == .gt)
  | .ge => ordered op left right (· != .lt)

def negate (operand : Value) : Except EvalError Value :=
  operand.toInteger.map fun value => .big (-value)

/-- An integer of any size is compared with zero, and the truth of any other value turned round. -/
def logicalNot : Value → Value
  | .big value => .bool (value == 0)
  | operand => .bool !operand.isTruthy

/-- Both ways of negating a value go by its truth. -/
theorem logicalNot_eq (operand : Value) : logicalNot operand = .bool !operand.isTruthy := by
  cases operand with
  | big value => rw [logicalNot, Value.isTruthy, bne, Bool.not_not]
  | _ => rfl

/-- An amount of a denomination in wei. -/
def scaled (unit : Denomination) (operand : Value) : Except EvalError Value :=
  operand.toInteger.map fun value => .big (value * unit.scale)

end Arithmetic

end EtherCalc
