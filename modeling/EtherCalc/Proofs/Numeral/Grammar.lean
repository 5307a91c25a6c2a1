import EtherCalc.Proofs.Numeral.Positional
import Mathlib

namespace EtherCalc

def decimalChars : List Char :=
  "0123456789".toList

namespace Numeral

/-- The characters spell a number without a sign. -/
inductive Unsigned : List Char → Nat → Prop where
  | decimal {digits : List Char} (some : digits ≠ []) (ascii : ∀ c ∈ digits, c ∈ decimalChars) :
      Unsigned digits (positional 10 digits)
  | hexadecimal {mark : Char} {digits : List Char} (isMark : mark = 'x' ∨ mark = 'X')
      (some : digits ≠ []) (ascii : ∀ c ∈ digits, c ∈ digitChars) :
      Unsigned ('0' :: mark :: digits) (positional 16 digits)

/-- The characters spell an integer. -/
inductive Spells : List Char → Int → Prop where
  | plain {digits : List Char} {value : Nat} (unsigned : Unsigned digits value) :
      Spells digits value
  | minus {digits : List Char} {value : Nat} (unsigned : Unsigned digits value) :
      Spells ('-' :: digits) (-value)

/-- The text spells some integer. -/
def IsNumeral (text : String) : Prop :=
  ∃ value, Spells text.toList value

section

variable {base value limit : Nat} {integer : Int} {chars : List Char} {c : Char}
variable {text mantissa exponent : String} {error : EvalError}

theorem isDigit_ten_iff : isDigit 10 c = true ↔ c ∈ decimalChars := by
  constructor
  · intro digit
    have all : digitChars.all (fun c => !isDigit 10 c || decimalChars.contains c) = true := by
      decide
    have found := List.all_eq_true.mp all c (mem_digitChars (isDigit_sixteen digit))
    simpa [digit] using found
  · have all : decimalChars.all (isDigit 10) = true := by decide
    exact List.all_eq_true.mp all c

theorem isDigit_sixteen_iff : isDigit 16 c = true ↔ c ∈ digitChars := by
  have all : digitChars.all (isDigit 16) = true := by decide
  exact ⟨mem_digitChars, List.all_eq_true.mp all c⟩

theorem digits_ten_iff : Digits 10 chars ↔ chars ≠ [] ∧ ∀ c ∈ chars, c ∈ decimalChars := by
  simp only [Digits, isDigit_ten_iff]

theorem digits_sixteen_iff : Digits 16 chars ↔ chars ≠ [] ∧ ∀ c ∈ chars, c ∈ digitChars := by
  simp only [Digits, isDigit_sixteen_iff]

theorem natural?_eq_some (isBase : base = 10 ∨ base = 16) : natural? base chars = some value ↔
    Digits base chars ∧ positional base chars = value := by
  constructor
  · intro found
    have digits : Digits base chars := by
      refine ⟨?_, isDigit_of_natural? found⟩
      rintro rfl
      contradiction
    rw [natural?_positional isBase digits] at found
    exact ⟨digits, Option.some.inj found⟩
  · rintro ⟨digits, rfl⟩
    exact natural?_positional isBase digits

theorem Unsigned.spelling (unsigned : Unsigned chars value) :
    ∀ c ∈ chars, c = 'x' ∨ c = 'X' ∨ c ∈ digitChars := by
  intro c member
  cases unsigned with
  | decimal some ascii =>
      exact .inr (.inr (mem_digitChars (isDigit_sixteen (isDigit_ten_iff.mpr (ascii c member)))))
  | hexadecimal isMark some ascii =>
      simp only [List.mem_cons] at member
      rcases member with rfl | rfl | member
      · exact .inr (.inr (by decide))
      · exact or_assoc.mp (.inl isMark)
      · exact .inr (.inr (ascii c member))

theorem Unsigned.no_minus (unsigned : Unsigned chars value) : '-' ∉ chars := by
  intro member
  have other : ¬ ('-' = 'x' ∨ '-' = 'X' ∨ '-' ∈ digitChars) := by decide
  exact other (unsigned.spelling '-' member)

theorem magnitude?_eq_some : magnitude? chars = some value ↔ Unsigned chars value := by
  constructor
  · intro found
    unfold magnitude? at found
    split at found
    · obtain ⟨digits, rfl⟩ := (natural?_eq_some (.inr rfl)).mp found
      obtain ⟨some, ascii⟩ := digits_sixteen_iff.mp digits
      exact .hexadecimal (.inl rfl) some ascii
    · obtain ⟨digits, rfl⟩ := (natural?_eq_some (.inr rfl)).mp found
      obtain ⟨some, ascii⟩ := digits_sixteen_iff.mp digits
      exact .hexadecimal (.inr rfl) some ascii
    · obtain ⟨digits, rfl⟩ := (natural?_eq_some (.inl rfl)).mp found
      obtain ⟨some, ascii⟩ := digits_ten_iff.mp digits
      exact .decimal some ascii
  · intro unsigned
    cases unsigned with
    | decimal some ascii =>
        have digits := digits_ten_iff.mpr ⟨some, ascii⟩
        rw [magnitude?_digits digits.2]
        exact natural?_positional (.inl rfl) digits
    | hexadecimal isMark some ascii =>
        have digits := digits_sixteen_iff.mpr ⟨some, ascii⟩
        rcases isMark with rfl | rfl <;> exact natural?_positional (.inr rfl) digits

theorem integer?_eq_some : integer? chars = some integer ↔ Spells chars integer := by
  constructor
  · intro found
    unfold integer? at found
    split at found
    · rename_i rest
      cases magnitude : magnitude? rest with
      | none =>
          rw [magnitude] at found
          contradiction
      | some value =>
          rw [magnitude] at found
          cases found
          exact .minus (magnitude?_eq_some.mp magnitude)
    · cases magnitude : magnitude? chars with
      | none =>
          rw [magnitude] at found
          contradiction
      | some value =>
          rw [magnitude] at found
          cases found
          exact .plain (magnitude?_eq_some.mp magnitude)
  · intro spells
    cases spells with
    | plain unsigned =>
        refine integer?_of_magnitude? (magnitude?_eq_some.mpr unsigned) fun minus => ?_
        exact unsigned.no_minus (List.mem_of_mem_head? minus)
    | minus unsigned =>
        rw [integer?, magnitude?_eq_some.mpr unsigned]
        rfl

theorem read_eq_ok : read text = .ok integer ↔ Spells text.toList integer := by
  rw [read, ← integer?_eq_some]
  cases integer? text.toList <;> simp

theorem read_eq_error : read text = .error error ↔
    ¬ IsNumeral text ∧ error = .invalidNumeral text := by
  simp only [IsNumeral, ← integer?_eq_some, read]
  cases integer? text.toList with
  | none => simp [eq_comm]
  | some value => simp

/-- A numeral has no sign but the first character, and no characters but digits and marks else. -/
theorem Spells.spelling (spells : Spells chars integer) :
    '-' ∉ chars.tail ∧ ∀ c ∈ chars, c = '-' ∨ c = 'x' ∨ c = 'X' ∨ c ∈ digitChars := by
  cases spells with
  | plain unsigned =>
      refine ⟨fun member => unsigned.no_minus (List.mem_of_mem_tail member), fun c member => ?_⟩
      exact .inr (unsigned.spelling c member)
  | minus unsigned =>
      refine ⟨unsigned.no_minus, fun c member => ?_⟩
      rcases List.mem_cons.mp member with rfl | member
      · exact .inl rfl
      · exact .inr (unsigned.spelling c member)

theorem scientific_eq_ok : scientific limit mantissa exponent = .ok integer ↔
    ∃ (factor : Int) (power : Nat), Spells mantissa.toList factor ∧
      Spells exponent.toList power ∧ power ≤ limit ∧ factor * 10 ^ power = integer := by
  simp only [← read_eq_ok, scientific]
  rcases read mantissa with _ | factor
  · simp
  rcases read exponent with _ | power
  · simp
  by_cases fits : 0 ≤ power ∧ power ≤ limit
  · obtain ⟨power, rfl⟩ := Int.eq_ofNat_of_zero_le fits.1
    have low : power ≤ limit := by omega
    simp [low]
  · simp only [fits, if_false]
    constructor
    · rintro ⟨⟩
    · rintro ⟨_, count, _, same, low, _⟩
      cases same
      exact absurd ⟨Int.natCast_nonneg count, Int.ofNat_le.mpr low⟩ fits

theorem scientific_eq_error : scientific limit mantissa exponent = .error error ↔
    ¬ IsNumeral mantissa ∧ error = .invalidNumeral mantissa ∨
    IsNumeral mantissa ∧ ¬ IsNumeral exponent ∧ error = .invalidNumeral exponent ∨
    IsNumeral mantissa ∧ ∃ power : Int, Spells exponent.toList power ∧
      ¬ (0 ≤ power ∧ power ≤ limit) ∧ error = .exponentOverflow power limit := by
  simp only [IsNumeral, ← read_eq_ok, scientific]
  cases readMantissa : read mantissa with
  | error fault =>
      obtain ⟨_, rfl⟩ := read_eq_error.mp readMantissa
      simp [eq_comm]
  | ok factor =>
      cases readExponent : read exponent with
      | error fault =>
          obtain ⟨_, rfl⟩ := read_eq_error.mp readExponent
          simp [eq_comm]
      | ok power =>
          by_cases fits : 0 ≤ power ∧ power ≤ limit
          · simp [fits]
          · simp only [if_neg fits]
            constructor
            · rintro ⟨⟩
              exact .inr (.inr ⟨⟨factor, rfl⟩, power, rfl, fits, rfl⟩)
            · rintro (⟨other, _⟩ | ⟨_, other, _⟩ | ⟨_, _, ⟨⟩, _, rfl⟩)
              · exact absurd ⟨factor, rfl⟩ other
              · exact absurd ⟨power, rfl⟩ other
              · rfl

end

/-- A text is read if and only if it is a numeral, as the integer that it spells.  A scientific
literal has a value if and only if both parts are numerals and the exponent is at least zero and at
most the limit; of its faults the one of the mantissa counts first and the size of the exponent
last. -/
theorem numerals_read :
    (∀ text integer, read text = .ok integer ↔ Spells text.toList integer) ∧
    (∀ text error, read text = .error error ↔
      ¬ IsNumeral text ∧ error = .invalidNumeral text) ∧
    (∀ text, IsNumeral text → '-' ∉ text.toList.tail ∧
      ∀ c ∈ text.toList, c = '-' ∨ c = 'x' ∨ c = 'X' ∨ c ∈ digitChars) ∧
    ∀ limit mantissa exponent,
      (∀ integer, scientific limit mantissa exponent = .ok integer ↔
        ∃ (factor : Int) (power : Nat), Spells mantissa.toList factor ∧
          Spells exponent.toList power ∧ power ≤ limit ∧ factor * 10 ^ power = integer) ∧
      (∀ error, scientific limit mantissa exponent = .error error ↔
        ¬ IsNumeral mantissa ∧ error = .invalidNumeral mantissa ∨
        IsNumeral mantissa ∧ ¬ IsNumeral exponent ∧ error = .invalidNumeral exponent ∨
        IsNumeral mantissa ∧ ∃ power : Int, Spells exponent.toList power ∧
          ¬ (0 ≤ power ∧ power ≤ limit) ∧ error = .exponentOverflow power limit) ∧
      ∀ power, (EvalError.exponentOverflow power limit).message =
        "Exponent " ++ toString power ++ " exceeds the maximum of " ++ toString limit := by
  refine ⟨fun _ _ => read_eq_ok, fun _ _ => read_eq_error, ?_, fun limit mantissa exponent => ?_⟩
  · rintro text ⟨integer, spells⟩
    exact spells.spelling
  · exact ⟨fun _ => scientific_eq_ok, fun _ => scientific_eq_error, fun _ => rfl⟩

/-- A negative mantissa in hexadecimal with an exponent in hexadecimal, exponents on both sides of
what the limit admits, and texts that miss being numerals by one character. -/
theorem numerals_read_signed :
    scientific 20 "-0Xf" "0x14" = .ok (-1500000000000000000000) ∧
      scientific 20 "-0Xf" "0x15" = .error (.exponentOverflow 21 20) ∧
      scientific 20 "1" "-1" = .error (.exponentOverflow (-1) 20) ∧
      scientific 20 "0x" "--1" = .error (.invalidNumeral "0x") ∧
      scientific 20 "1" "1_0" = .error (.invalidNumeral "1_0") ∧
      '-' ∉ "-0Xf".toList.tail ∧ ¬ IsNumeral "+5" ∧ ¬ IsNumeral "٣" := by
  obtain ⟨reads, refuses, spelling, literals⟩ := numerals_read
  have mantissa : Spells "-0Xf".toList (-15) := (reads _ _).mp (by cbv)
  have twenty : Spells "0x14".toList (20 : Nat) := (reads _ _).mp (by cbv)
  have above : Spells "0x15".toList 21 := (reads _ _).mp (by cbv)
  have one : Spells "1".toList 1 := (reads _ _).mp (by cbv)
  have below : Spells "-1".toList (-1) := (reads _ _).mp (by cbv)
  have bare : ¬ IsNumeral "0x" := ((refuses "0x" (.invalidNumeral "0x")).mp (by cbv)).1
  have joined : ¬ IsNumeral "1_0" := ((refuses "1_0" (.invalidNumeral "1_0")).mp (by cbv)).1
  refine ⟨?_, ?_, ?_, ?_, ?_, (spelling _ ⟨_, mantissa⟩).1, ?_, ?_⟩
  · exact ((literals 20 _ _).1 _).mpr ⟨-15, 20, mantissa, twenty, by decide, by decide⟩
  · exact ((literals 20 _ _).2.1 _).mpr
      (.inr (.inr ⟨⟨_, mantissa⟩, 21, above, by decide, rfl⟩))
  · exact ((literals 20 _ _).2.1 _).mpr (.inr (.inr ⟨⟨_, one⟩, -1, below, by decide, rfl⟩))
  · exact ((literals 20 _ _).2.1 _).mpr (.inl ⟨bare, rfl⟩)
  · exact ((literals 20 _ _).2.1 _).mpr (.inr (.inl ⟨⟨_, one⟩, joined, rfl⟩))
  · exact fun plus => absurd ((spelling "+5" plus).2 '+' (by decide)) (by decide)
  · exact fun foreign => absurd ((spelling "٣" foreign).2 '٣' (by decide)) (by decide)

end Numeral

end EtherCalc
