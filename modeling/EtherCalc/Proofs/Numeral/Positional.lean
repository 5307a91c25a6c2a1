import EtherCalc.Proofs.Numeral
import Mathlib

namespace EtherCalc

def digitChars : List Char :=
  "0123456789abcdefABCDEF".toList

/-- What a digit is worth, in either case of its letter. -/
def digitValue (c : Char) : Nat :=
  "0123456789abcdef".toList.idxOf c.toLower

/-- The value of digits by their places. -/
def positional (base : Nat) (digits : List Char) : Nat :=
  Nat.ofDigits base (digits.reverse.map digitValue)

section

variable {c : Char} {base before : Nat} {chars : List Char}

theorem isDigit_le (digit : isDigit 16 c = true) : c.toNat ≤ 'f'.toNat := by
  have bounded : c ≤ '9' ∨ c ≤ 'f' ∨ c ≤ 'F' := by
    by_contra outside
    simp only [not_or] at outside
    have none : digit? 16 c = none := by
      simp [digit?, outside.1, outside.2.1, outside.2.2]
    simp [isDigit, none] at digit
  rcases bounded with high | high | high
  · exact Nat.le_trans high (by decide)
  · exact high
  · exact Nat.le_trans high (by decide)

theorem mem_digitChars (digit : isDigit 16 c = true) : c ∈ digitChars := by
  have all : ∀ code ≤ 'f'.toNat, isDigit 16 (Char.ofNat code) = true →
      Char.ofNat code ∈ digitChars := by decide
  have found := all c.toNat (isDigit_le digit)
  rw [Char.ofNat_toNat] at found
  exact found digit

theorem digit?_sixteen (digit : isDigit 16 c = true) : digit? 16 c = some (digitValue c) := by
  have all : digitChars.all (fun c => digit? 16 c == some (digitValue c)) = true := by decide
  exact beq_iff_eq.mp (List.all_eq_true.mp all c (mem_digitChars digit))

theorem digit?_value (isBase : base = 10 ∨ base = 16) (digit : isDigit base c = true) :
    digit? base c = some (digitValue c) := by
  rcases isBase with rfl | rfl
  · obtain ⟨value, found⟩ := Option.isSome_iff_exists.mp digit
    rw [found, ← Numeral.digit?_raise found, digit?_sixteen (Numeral.isDigit_sixteen digit)]
  · exact digit?_sixteen digit

theorem positional_cons : positional base (c :: chars) =
    digitValue c * base ^ chars.length + positional base chars := by
  rw [positional, List.reverse_cons, List.map_append, Nat.ofDigits_append]
  simp [positional, Nat.add_comm, Nat.mul_comm]

/-- Zeros at the end multiply by the base. -/
theorem positional_append_zeros (count : Nat) :
    positional base (chars ++ List.replicate count '0') = positional base chars * base ^ count := by
  have zero : digitValue '0' = 0 := by decide
  rw [positional, List.reverse_append, List.map_append, Nat.ofDigits_append]
  simp [positional, zero, Nat.ofDigits_replicate_zero, Nat.mul_comm]

namespace Numeral

theorem valueAfter?_positional (isBase : base = 10 ∨ base = 16)
    (digits : ∀ c ∈ chars, isDigit base c = true) :
    valueAfter? base before chars = some (before * base ^ chars.length + positional base chars) := by
  induction chars generalizing before with
  | nil => simp [valueAfter?, positional]
  | cons c rest ih =>
      rw [valueAfter?, digit?_value isBase (digits c List.mem_cons_self)]
      simp only [ih fun other member => digits other (List.mem_cons_of_mem _ member)]
      rw [positional_cons, List.length_cons]
      ring_nf

theorem natural?_positional (isBase : base = 10 ∨ base = 16) (digits : Digits base chars) :
    natural? base chars = some (positional base chars) := by
  cases chars with
  | nil => exact absurd rfl digits.1
  | cons c rest =>
      rw [natural?, valueAfter?_positional isBase digits.2, Nat.zero_mul, Nat.zero_add]
      nofun

theorem read_decimal_positional (digits : Digits 10 chars) :
    read (String.ofList chars) = .ok (positional 10 chars : Int) := by
  have found := (magnitude?_digits digits.2).trans (natural?_positional (.inl rfl) digits)
  refine read_of_magnitude? (by rwa [String.toList_ofList]) fun minus => ?_
  rw [String.toList_ofList] at minus
  have digit := digits.2 '-' (List.mem_of_mem_head? minus)
  contradiction

theorem read_hex_positional {mark : Char} (isMark : mark = 'x' ∨ mark = 'X')
    (digits : Digits 16 chars) :
    read (String.ofList ('0' :: mark :: chars)) = .ok (positional 16 chars : Int) := by
  have found := natural?_positional (.inr rfl) digits
  have magnitude : magnitude? ('0' :: mark :: chars) = some (positional 16 chars) := by
    rcases isMark with rfl | rfl <;> exact found
  exact read_of_magnitude? (by rwa [String.toList_ofList]) (by simp)

end Numeral

end

end EtherCalc
