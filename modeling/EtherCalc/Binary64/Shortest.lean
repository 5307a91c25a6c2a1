import EtherCalc.Binary64

namespace EtherCalc

/-!
The shortest decimal text of a binary64 number.

Among the decimal numbers that round to a magnitude those with the fewest digits are taken, and
of these the nearest.  On the grid of the multiples of a power of ten only the two neighbours of
the magnitude matter: if any multiple rounds to it, one of these does.
-/

namespace Magnitude

/-- The magnitude and the ends of the interval that rounds to it, in quarters of its last place.
Below a power of two the places are half as wide. -/
def quarters (magnitude : Magnitude) : Nat × Nat × Nat :=
  let value := 4 * magnitude.significand
  let narrow := magnitude.significand = limit / 2 ∧ leastExponent < magnitude.exponent
  (if narrow then value - 1 else value - 2, value, value + 2)

/-- The decimal exponent of the leading digit of a positive ratio that is no negative power of
ten. -/
def leadingExponent (numerator denominator : Nat) : Int :=
  if denominator ≤ numerator then (Nat.toDigits 10 (numerator / denominator)).length - 1
  else -((Nat.toDigits 10 (denominator / numerator)).length : Int)

/-- The nearest multiple of ten to the `place` that rounds to the magnitude, as a multiple. -/
def onGrid? (magnitude : Magnitude) (place : Int) : Option Nat :=
  let (low, value, high) := magnitude.quarters
  let (gridDenominator, gridNumerator) :=
    (Nat.pow 10 (-place).toNat <<< (magnitude.exponent - 2).toNat,
      Nat.pow 10 place.toNat <<< (2 - magnitude.exponent).toNat)
  let below := value * gridDenominator / gridNumerator
  let remainder := value * gridDenominator % gridNumerator
  let rounds (multiple : Nat) : Bool :=
    let scaled := multiple * gridNumerator
    if magnitude.significand % 2 = 0 then
      low * gridDenominator ≤ scaled ∧ scaled ≤ high * gridDenominator
    else low * gridDenominator < scaled ∧ scaled < high * gridDenominator
  let upIsNearer :=
    gridNumerator < 2 * remainder ∨ (gridNumerator = 2 * remainder ∧ below % 2 = 1)
  match rounds below, rounds (below + 1) with
  | true, true => some (if upIsNearer then below + 1 else below)
  | true, false => some below
  | false, true => some (below + 1)
  | false, false => none

/-- The first grid from `place` down that has a number for the magnitude. -/
def shortestFrom (magnitude : Magnitude) (place : Int) : Nat → Nat × Int
  | 0 => (0, place)
  | grids + 1 =>
      match magnitude.onGrid? place with
      | some multiple => (multiple, place)
      | none => shortestFrom magnitude (place - 1) grids

/-- The digits of a positive magnitude and the decimal exponent of the first.  Seventeen digits
always suffice. -/
def shortest (magnitude : Magnitude) : List Char × Int :=
  let numerator := magnitude.significand <<< magnitude.exponent.toNat
  let denominator := 1 <<< (-magnitude.exponent).toNat
  let (multiple, place) :=
    shortestFrom magnitude (leadingExponent numerator denominator) 17
  let digits := Nat.toDigits 10 multiple
  ((digits.reverse.dropWhile (· == '0')).reverse, place + digits.length - 1)

/-- Digits with a decimal point among, before or after them, and one digit on both sides. -/
def positional (digits : List Char) (leading : Int) : List Char :=
  if leading < 0 then
    ['0', '.'] ++ List.replicate (-leading - 1).toNat '0' ++ digits
  else
    let whole := leading.toNat + 1
    if digits.length ≤ whole then
      digits ++ List.replicate (whole - digits.length) '0' ++ ['.', '0']
    else digits.take whole ++ ['.'] ++ digits.drop whole

/-- Digits with the point after the first, and a signed exponent. -/
def exponential (digits : List Char) (leading : Int) : List Char :=
  let fraction := if digits.length = 1 then [] else '.' :: digits.drop 1
  digits.take 1 ++ fraction ++
  ['e', if leading < 0 then '-' else '+'] ++ Nat.toDigits 10 leading.natAbs

/-- The decimal text: positional from a hundred-thousandth up to below ten to the sixteenth, else
exponential. -/
def text (magnitude : Magnitude) : List Char :=
  if magnitude.significand = 0 then ['0', '.', '0']
  else
    let (digits, leading) := magnitude.shortest
    if -5 ≤ leading ∧ leading ≤ 15 then positional digits leading
    else exponential digits leading

end Magnitude

def Binary64.text (number : Binary64) : String :=
  String.ofList ((if number.negative then ['-'] else []) ++ number.magnitude.text)

end EtherCalc
