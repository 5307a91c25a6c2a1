import EtherCalc.Numeral
import EtherCalc.Value

namespace EtherCalc

/-!
Integers inside values.  `Value.toInteger` reads a value as an integer of any size, and
`Integer.narrow?` finds the machine word for an integer that fits one.
-/

namespace Integer

/-- The signed word of 64 bits that holds an integer, if one does. -/
def narrow? (value : Int) : Option Int64 :=
  if Int64.minValue.toInt ≤ value ∧ value ≤ Int64.maxValue.toInt then some (Int64.ofInt value)
  else none

/-- The integer as a count, if it fits an unsigned word of 64 bits. -/
def count? (value : Int) : Option Nat :=
  if 0 ≤ value ∧ value < UInt64.size then some value.toNat else none

/-- An integer as a word where it fits, else of any size. -/
def toValue (value : Int) : Value :=
  match narrow? value with
  | some word => .int word
  | none => .big value

end Integer

namespace Value

/-- The integer that a value stands for: itself, or what its text spells. -/
def toInteger : Value → Except EvalError Int
  | .big value => .ok value
  | .int value => .ok value.toInt
  | .string text => Numeral.read text
  | other => .error (.type (.notInteger other.typeName))

def word? : Value → Option Int64
  | .int value => some value
  | .big value => Integer.narrow? value
  | _ => none

def count? : Value → Option Nat
  | .int value => Integer.count? value.toInt
  | .big value => Integer.count? value
  | _ => none

end Value

end EtherCalc
