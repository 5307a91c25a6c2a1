import EtherCalc.Digit
import EtherCalc.EvalError

namespace EtherCalc

/-!
Integers in text.  A numeral is an optional minus sign and digits, decimal or hexadecimal after
`0x`; a scientific literal multiplies one numeral by a power of ten given by another.
-/

namespace Numeral

/-- The number that digits spell after a number that is already read. -/
def valueAfter? (base : Nat) (value : Nat) : List Char → Option Nat
  | [] => some value
  | c :: rest =>
      match digit? base c with
      | none => none
      | some digit => valueAfter? base (value * base + digit) rest

def natural? (base : Nat) : List Char → Option Nat
  | [] => none
  | digits => valueAfter? base 0 digits

/-- The number that digits spell, hexadecimal after `0x`. -/
def magnitude? : List Char → Option Nat
  | '0' :: 'x' :: digits | '0' :: 'X' :: digits => natural? 16 digits
  | digits => natural? 10 digits

def integer? : List Char → Option Int
  | '-' :: rest => (magnitude? rest).map fun value => -(value : Int)
  | chars => (magnitude? chars).map fun value => (value : Int)

/-- The integer that a text spells, or the fault of the whole text. -/
def read (text : String) : Except EvalError Int :=
  match integer? text.toList with
  | some value => .ok value
  | none => .error (.invalidNumeral text)

/-- The value of a scientific literal, whose exponent must not exceed the limit. -/
def scientific (limit : Nat) (mantissa exponent : String) : Except EvalError Int :=
  match read mantissa, read exponent with
  | .error error, _ => .error error
  | .ok _, .error error => .error error
  | .ok factor, .ok power =>
      if 0 ≤ power ∧ power ≤ limit then .ok (factor * Nat.pow 10 power.toNat)
      else .error (.exponentOverflow power limit)

end Numeral

end EtherCalc
