import EtherCalc.Json
import EtherCalc.Json.Raw

namespace EtherCalc.Json.Number

/-!
The number that a JSON numeral stands for.

A whole number stays exact while it fits 64 bits.  All others go through binary64: as many digits
as fit 64 bits make the significand, the others only count for the exponent, and the result is
the significand times or divided by a power of ten, each of the two rounded.  A zero with a minus
sign is binary64 as well, because only there zero has a sign.
-/

/-- Digits so far, as a number of 64 bits and the power of ten that it is to be taken times. -/
structure Scaled where
  significand : Nat
  exponent : Int

/-- The number `significand` with one more digit, if 64 bits hold it. -/
def withDigit? (significand : Nat) (digit : Char) : Option Nat :=
  let longer := significand * 10 + (digit.toNat - '0'.toNat)
  if longer < UInt64.size then some longer else none

/-- The digits before the point.  From the first that does not fit on all are left out. -/
def wholeDigits (significand : Nat) : List Char → Scaled
  | [] => ⟨significand, 0⟩
  | digit :: rest =>
      match withDigit? significand digit with
      | some longer => wholeDigits longer rest
      | none => ⟨significand, (digit :: rest).length⟩

/-- The digits after the point, up to the first that does not fit. -/
def fractionDigits (scaled : Scaled) : List Char → Scaled
  | [] => scaled
  | digit :: rest =>
      match withDigit? scaled.significand digit with
      | some longer => fractionDigits ⟨longer, scaled.exponent - 1⟩ rest
      | none => scaled

/-- The exponent is too large for a signed word of 32 bits. -/
def overflows (digits : List Char) : Bool :=
  Int32.maxValue.toInt < Nat.ofDigitChars 10 digits 0

/-- A sum as a signed word of 32 bits, or the end of the range it is beyond. -/
def saturated (value : Int) : Int :=
  max Int32.minValue.toInt (min Int32.maxValue.toInt value)

/-- The magnitude times ten to the exponent; none if that is too large.  Powers below the
smallest exact one are taken in steps of the greatest power of ten in the format. -/
def timesPower? (magnitude : Magnitude) (exponent : Int) : Option Magnitude :=
  if 0 ≤ exponent then
    if exponent ≤ 308 then do
      let power ← Magnitude.ofNat? (Nat.pow 10 exponent.toNat)
      magnitude.mul? power
    else if magnitude.significand = 0 then some magnitude
    else none
  else if -308 ≤ exponent then do
    let power ← Magnitude.ofNat? (Nat.pow 10 (-exponent).toNat)
    magnitude.div? power
  else if magnitude.significand = 0 then some magnitude
  else do
    let step ← Magnitude.ofNat? (Nat.pow 10 308)
    let smaller ← magnitude.div? step
    timesPower? smaller (exponent + 308)
termination_by (-exponent).toNat

/-- The binary64 number of scaled digits. -/
def ofScaled? (negative : Bool) (scaled : Scaled) : Option Number := do
  let magnitude ← Magnitude.ofNat? scaled.significand
  let result ← timesPower? magnitude scaled.exponent
  return .binary ⟨negative, result⟩

/-- The number of scaled digits times the power of ten of a written exponent. -/
def withExponent? (negative : Bool) (scaled : Scaled) (minus : Bool) (power : List Char) :
    Option Number :=
  if overflows power then
    if scaled.significand ≠ 0 ∧ !minus then none
    else some (.binary ⟨negative, ⟨0, Magnitude.leastExponent⟩⟩)
  else
    let value : Int := Nat.ofDigitChars 10 power 0
    ofScaled? negative
      ⟨scaled.significand, saturated (scaled.exponent + if minus then -value else value)⟩

/-- A whole number without exponent. -/
def ofWhole? (negative : Bool) (whole : Scaled) : Option Number :=
  let value : Int := whole.significand
  if whole.exponent ≠ 0 then ofScaled? negative whole
  else if !negative then some (.integer value)
  else if 0 < value ∧ Int64.minValue.toInt ≤ -value then some (.integer (-value))
  else ofScaled? negative whole

/-- The number of a numeral; none if it is too large for binary64. -/
def ofNumeral? (numeral : Numeral) : Option Number :=
  let whole := wholeDigits 0 numeral.whole
  match numeral.fraction, numeral.exponent with
  | none, none => ofWhole? numeral.negative whole
  | none, some (minus, power) => withExponent? numeral.negative whole minus power
  | some fraction, none => ofScaled? numeral.negative (fractionDigits whole fraction)
  | some fraction, some (minus, power) =>
      withExponent? numeral.negative (fractionDigits whole fraction) minus power

end EtherCalc.Json.Number
