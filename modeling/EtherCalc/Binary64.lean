namespace EtherCalc

/-!
Finite numbers of the binary64 format, in exact arithmetic.

A magnitude is a significand below two to the 53rd times a power of two not below the smallest
one of the format.  `Magnitude.ofRatio?` rounds any ratio to the nearest magnitude, a tie to an
even significand, and all other operations are exact operations followed by it.
-/

/-- The number `significand` times two to the `exponent`. -/
structure Magnitude where
  significand : Nat
  exponent : Int
deriving DecidableEq, Repr

namespace Magnitude

/-- Two to the 53rd, which no significand reaches. -/
def limit : Nat := 1 <<< 53

def leastExponent : Int := -1074

def greatestExponent : Int := 971

/-- The quotient rounded to the nearest integer, a tie to the even one. -/
def roundedQuotient (numerator denominator : Nat) : Nat :=
  let quotient := numerator / denominator
  let remainder := numerator % denominator
  if denominator < 2 * remainder ∨ (denominator = 2 * remainder ∧ quotient % 2 = 1) then
    quotient + 1
  else quotient

/-- The ratio divided by a power of two. -/
def scaledDown (numerator denominator : Nat) (exponent : Int) : Nat × Nat :=
  (numerator <<< (-exponent).toNat, denominator <<< exponent.toNat)

/-- The exponent at which the ratio has a significand of 53 binary digits, or the least one. -/
def exponentFor (numerator denominator : Nat) : Int :=
  let guess := (numerator.log2 : Int) - denominator.log2 - 53
  let (scaledNumerator, scaledDenominator) := scaledDown numerator denominator guess
  let exact := if scaledNumerator / scaledDenominator < limit then guess else guess + 1
  max exact leastExponent

/-- The magnitude nearest to a ratio; none if the ratio is too large for the format. -/
def ofRatio? (numerator denominator : Nat) : Option Magnitude :=
  if numerator = 0 then some ⟨0, leastExponent⟩
  else
    let exponent := exponentFor numerator denominator
    let (scaledNumerator, scaledDenominator) := scaledDown numerator denominator exponent
    let significand := roundedQuotient scaledNumerator scaledDenominator
    let rounded : Magnitude :=
      if significand = limit then ⟨limit / 2, exponent + 1⟩ else ⟨significand, exponent⟩
    if rounded.exponent ≤ greatestExponent then some rounded else none

def ofNat? (value : Nat) : Option Magnitude :=
  ofRatio? value 1

def mul? (left right : Magnitude) : Option Magnitude :=
  let (denominator, numerator) :=
    scaledDown 1 (left.significand * right.significand) (left.exponent + right.exponent)
  ofRatio? numerator denominator

def div? (left right : Magnitude) : Option Magnitude :=
  let (denominator, numerator) :=
    scaledDown right.significand left.significand (left.exponent - right.exponent)
  ofRatio? numerator denominator

end Magnitude

/-- A magnitude with a sign; zero has two. -/
structure Binary64 where
  negative : Bool
  magnitude : Magnitude
deriving DecidableEq, Repr

end EtherCalc
