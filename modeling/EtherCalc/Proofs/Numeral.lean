import EtherCalc.Numeral
import EtherCalc.Proofs.Lexer.Spelling

namespace EtherCalc.Numeral

variable {base before limit : Nat} {chars : List Char} {text mantissa exponent : String}
variable {error : EvalError}

/-- A decimal digit is the same digit in hexadecimal. -/
theorem digit?_raise {c : Char} {value : Nat} (found : digit? 10 c = some value) :
    digit? 16 c = some value := by
  grind [digit?]

theorem isDigit_sixteen {c : Char} (digit : isDigit 10 c = true) : isDigit 16 c = true := by
  obtain ⟨value, found⟩ := Option.isSome_iff_exists.mp digit
  rw [isDigit, digit?_raise found]
  rfl

theorem valueAfter?_digits (digits : ∀ c ∈ chars, isDigit base c = true) :
    ∃ value, valueAfter? base before chars = some value := by
  induction chars generalizing before with
  | nil => exact ⟨before, rfl⟩
  | cons c rest ih =>
      obtain ⟨digit, found⟩ := Option.isSome_iff_exists.mp (digits c List.mem_cons_self)
      rw [valueAfter?, found]
      exact ih fun other member => digits other (List.mem_cons_of_mem _ member)

theorem natural?_digits (digits : Digits base chars) : ∃ value, natural? base chars = some value := by
  cases chars with
  | nil => exact absurd rfl digits.1
  | cons c rest => exact valueAfter?_digits digits.2

theorem isDigit_of_valueAfter? {value : Nat} (found : valueAfter? base before chars = some value) :
    ∀ c ∈ chars, isDigit base c := by
  induction chars generalizing before with
  | nil => simp
  | cons first rest ih =>
      rw [valueAfter?] at found
      split at found
      · contradiction
      · rename_i digit isDigitFirst
        intro c member
        rcases List.mem_cons.mp member with rfl | member
        · simp [isDigit, isDigitFirst]
        · exact ih found c member

theorem isDigit_of_natural? {value : Nat} (found : natural? base chars = some value) :
    ∀ c ∈ chars, isDigit base c := by
  unfold natural? at found
  split at found
  · contradiction
  · exact isDigit_of_valueAfter? found

/-- What begins with a digit has no minus sign. -/
theorem integer?_of_magnitude? {value : Nat} (found : magnitude? chars = some value)
    (plain : chars.head? ≠ some '-') : integer? chars = some (value : Int) := by
  unfold integer?
  split
  · contradiction
  · rw [found]
    rfl

theorem read_of_magnitude? {value : Nat} (found : magnitude? text.toList = some value)
    (plain : text.toList.head? ≠ some '-') : read text = .ok (value : Int) := by
  rw [read, integer?_of_magnitude? found plain]

/-- Decimal digits do not look like a hexadecimal numeral. -/
theorem magnitude?_digits (digits : ∀ c ∈ chars, isDigit 10 c = true) :
    magnitude? chars = natural? 10 chars := by
  unfold magnitude?
  split
  · have digit := digits 'x' (by simp)
    contradiction
  · have digit := digits 'X' (by simp)
    contradiction
  · rfl

theorem read_decimal (spelled : Token.decimal.Spells text.toList) :
    ∃ value : Nat, read text = .ok (value : Int) := by
  have digits : ∀ c ∈ text.toList, isDigit 10 c = true := spelled.2
  obtain ⟨value, found⟩ := natural?_digits spelled
  refine ⟨value, read_of_magnitude? ((magnitude?_digits digits).trans found) fun minus => ?_⟩
  have digit := digits '-' (List.mem_of_mem_head? minus)
  contradiction

theorem read_hex (spelled : Token.hex.Spells text.toList) :
    ∃ value : Nat, read text = .ok (value : Int) := by
  obtain ⟨mark, digits, whole, isMark, some⟩ := spelled
  obtain ⟨value, found⟩ := natural?_digits some
  have magnitude : magnitude? text.toList = .some value := by
    rw [whole]
    rcases isMark with rfl | rfl <;> exact found
  exact ⟨value, read_of_magnitude? magnitude (by simp [whole])⟩

/-- A scientific literal whose parts are read has a value, unless its exponent exceeds the limit. -/
theorem scientific_digits (spelledMantissa : Digits 10 mantissa.toList)
    (spelledExponent : Digits 10 exponent.toList)
    (failed : scientific limit mantissa exponent = .error error) :
    ∃ power : Nat, error = .exponentOverflow power limit ∧ limit < power := by
  obtain ⟨factor, readFactor⟩ := read_decimal spelledMantissa
  obtain ⟨power, readPower⟩ := read_decimal spelledExponent
  simp only [scientific, readFactor, readPower] at failed
  split at failed
  · contradiction
  · cases failed
    exact ⟨power, rfl, by omega⟩

theorem digit?_ten {c : Char} (digit : c.isDigit = true) :
    digit? 10 c = some (c.toNat - '0'.toNat) := by
  simp only [Char.isDigit, Bool.and_eq_true, decide_eq_true_eq] at digit
  obtain ⟨low, high⟩ := digit
  have small : c.toNat - '0'.toNat < 10 := by
    have high : c.toNat ≤ '9'.toNat := high
    have nine : '9'.toNat = 57 := rfl
    have zero : '0'.toNat = 48 := rfl
    omega
  have bounds : '0' ≤ c ∧ c ≤ '9' := ⟨low, high⟩
  simp only [digit?, if_pos bounds, if_pos small]

theorem valueAfter?_ten (digits : ∀ c ∈ chars, c.isDigit = true) :
    valueAfter? 10 before chars = some (Nat.ofDigitChars 10 chars before) := by
  induction chars generalizing before with
  | nil => rfl
  | cons c rest ih =>
      rw [valueAfter?, digit?_ten (digits c List.mem_cons_self), Nat.ofDigitChars_cons, Nat.mul_comm]
      exact ih fun other member => digits other (List.mem_cons_of_mem _ member)

theorem digits_toDigits (value : Nat) : Digits 10 (Nat.toDigits 10 value) := by
  refine ⟨Nat.toDigits_ne_nil, fun c member => ?_⟩
  rw [isDigit, digit?_ten (Nat.isDigit_of_mem_toDigits (by decide) (by decide) member)]
  rfl

theorem magnitude?_toDigits (value : Nat) : magnitude? (Nat.toDigits 10 value) = some value := by
  have digits (c : Char) (member : c ∈ Nat.toDigits 10 value) : c.isDigit = true :=
    Nat.isDigit_of_mem_toDigits (by decide) (by decide) member
  rw [magnitude?_digits (digits_toDigits value).2]
  unfold natural?
  split
  · rename_i none
    exact absurd none Nat.toDigits_ne_nil
  · rw [valueAfter?_ten digits, Nat.ofDigitChars_toDigits (by decide) (by decide)]

/-- The decimal text of an integer is read as the integer. -/
theorem read_toString (value : Int) : read (toString value) = .ok value := by
  have text : integer? (toString value).toList = some value := by
    rw [Int.toString_eq_repr]
    cases value with
    | ofNat count =>
        have plain : (Nat.toDigits 10 count).head? ≠ some '-' := fun minus =>
          absurd (Nat.isDigit_of_mem_toDigits (by decide) (by decide) (List.mem_of_mem_head? minus))
            (by decide)
        rw [Int.repr, Nat.toList_repr]
        exact integer?_of_magnitude? (magnitude?_toDigits count) plain
    | negSucc count =>
        have minus : "-".toList = ['-'] := by decide
        rw [Int.repr, String.toList_append, Nat.toList_repr, minus, List.singleton_append, integer?,
          magnitude?_toDigits]
        rfl
  rw [read, text]

end EtherCalc.Numeral
