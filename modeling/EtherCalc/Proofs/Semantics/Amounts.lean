import EtherCalc.Proofs.Lexer.Adjacency
import EtherCalc.Proofs.Parser.TreeHeight
import EtherCalc.Proofs.Semantics.Exactness
import EtherCalc.Proofs.Semantics.Limits
import Mathlib

namespace EtherCalc

/-- The value of a literal, or its fault under a limit for exponents. -/
inductive Numeral.Denotes (limit : Nat) : List Char → Except EvalError Nat → Prop where
  | decimal {digits : List Char} (some : Digits 10 digits) :
      Denotes limit digits (.ok (positional 10 digits))
  | hex {mark : Char} {digits : List Char} (isMark : mark = 'x' ∨ mark = 'X')
      (some : Digits 16 digits) : Denotes limit ('0' :: mark :: digits) (.ok (positional 16 digits))
  | scientific {mark : Char} {mantissa exponent : List Char} (isMark : mark = 'e' ∨ mark = 'E')
      (digits : Digits 10 mantissa) (some : Digits 10 exponent)
      (small : positional 10 exponent ≤ limit) :
      Denotes limit (mantissa ++ mark :: exponent)
        (.ok (positional 10 mantissa * 10 ^ positional 10 exponent))
  | overflow {mark : Char} {mantissa exponent : List Char} (isMark : mark = 'e' ∨ mark = 'E')
      (digits : Digits 10 mantissa) (some : Digits 10 exponent)
      (large : limit < positional 10 exponent) :
      Denotes limit (mantissa ++ mark :: exponent)
        (.error (.exponentOverflow (positional 10 exponent) limit))

/-- The words for units, with what one of each is in wei. -/
def unitWords : List (String × Nat) :=
  [("ether", 10 ^ 18), ("gwei", 10 ^ 9), ("wei", 1)]

/-- A literal, what stands between, and a unit. -/
def amountText (literal blanks : List Char) (word : String) : String :=
  String.ofList (literal ++ blanks) ++ word

section

variable {limit : Nat} {config : Config} {literal blanks : List Char}
variable {outcome : Except EvalError Nat} {expr : Expr} {unit : Denomination} {kind : Token}

theorem unitWords_denomination {word : String} {factor : Nat} (listed : (word, factor) ∈ unitWords) :
    ∃ unit : Denomination, word = unit.word ∧ (factor : Int) = unit.scale := by
  simp only [unitWords, List.mem_cons, List.not_mem_nil, or_false, Prod.mk.injEq] at listed
  rcases listed with ⟨rfl, rfl⟩ | ⟨rfl, rfl⟩ | ⟨rfl, rfl⟩
  · exact ⟨.ether, rfl, rfl⟩
  · exact ⟨.gwei, rfl, rfl⟩
  · exact ⟨.wei, rfl, rfl⟩

namespace Numeral

theorem scientific_positional {mantissa exponent : List Char} (digits : Digits 10 mantissa)
    (some : Digits 10 exponent) :
    scientific limit (String.ofList mantissa) (String.ofList exponent) =
      if positional 10 exponent ≤ limit then
        .ok (positional 10 mantissa * 10 ^ positional 10 exponent : Nat)
      else .error (.exponentOverflow (positional 10 exponent) limit) := by
  have readMantissa := read_decimal_positional digits
  have readExponent := read_decimal_positional some
  by_cases small : positional 10 exponent ≤ limit
  · rw [if_pos small, scientific_of_parts readMantissa readExponent small]
    push_cast
    rfl
  · have large : ¬ (0 ≤ (positional 10 exponent : Int) ∧ (positional 10 exponent : Int) ≤ limit) := by
      omega
    simp only [scientific, readMantissa, readExponent, if_neg small, if_neg large]

theorem scientific_literal {mark : Char} {mantissa exponent : List Char} {lexeme : Lexeme}
    (isMark : mark = 'e' ∨ mark = 'E') (digits : Digits 10 mantissa)
    (token : lexeme.token = .scientific)
    (text : lexeme.text = String.ofList (mantissa ++ mark :: exponent)) :
    NumberLiteral lexeme (.scientific (String.ofList mantissa) (String.ofList exponent)) := by
  refine .scientific token ?_ isMark ?_
  · simp only [text, String.toList_ofList]
  · rw [String.toList_ofList]
    exact Parser.digits_no_mark digits

/-- The token and the tree of a literal, and what it is compiled to. -/
theorem Denotes.compiles (denotes : Denotes config.maxExponent literal outcome) :
    ∃ kind expr, kind.isNumeral = true ∧ kind.Spells literal ∧
      (∀ lexeme : Lexeme, lexeme.token = kind → lexeme.text = String.ofList literal →
        NumberLiteral lexeme expr) ∧ expr.height = 0 ∧
      Program.ofExpr config expr = outcome.map fun value : Nat => .literal (.big value) := by
  cases denotes with
  | decimal some =>
      refine ⟨.decimal, .number (String.ofList literal), rfl, some, ?_, rfl, ?_⟩
      · rintro lexeme token text
        exact text ▸ .decimal token
      · rw [Program.ofExpr, read_decimal_positional some]
        rfl
  | @hex mark digits isMark some =>
      refine ⟨.hex, .number (String.ofList ('0' :: mark :: digits)), rfl,
        ⟨mark, digits, rfl, isMark, some⟩, ?_, rfl, ?_⟩
      · rintro lexeme token text
        exact text ▸ .hex token
      · rw [Program.ofExpr, read_hex_positional isMark some]
        rfl
  | @scientific mark mantissa exponent isMark digits some small =>
      refine ⟨.scientific, _, rfl, ⟨mantissa, mark, exponent, rfl, isMark, digits, some⟩,
        fun lexeme => scientific_literal isMark digits, rfl, ?_⟩
      rw [Program.ofExpr, scientific_positional digits some, if_pos small]
      rfl
  | @overflow mark mantissa exponent isMark digits some large =>
      refine ⟨.scientific, _, rfl, ⟨mantissa, mark, exponent, rfl, isMark, digits, some⟩,
        fun lexeme => scientific_literal isMark digits, rfl, ?_⟩
      rw [Program.ofExpr, scientific_positional digits some, if_neg (Nat.not_le_of_lt large)]
      rfl

end Numeral

namespace Lexer

theorem letters_unit (unit : Denomination) :
    ∀ c ∈ unit.word.toList, isDigit 10 c = false ∧ isHexMark c = false := by
  have all : unit.word.toList.all (fun c => !isDigit 10 c && !isHexMark c) = true := by
    cases unit <;> decide
  intro c member
  simpa using List.all_eq_true.mp all c member

theorem ther_spells : Token.name.Spells ['t', 'h', 'e', 'r'] :=
  ⟨'t', ['h', 'e', 'r'], rfl, by decide, List.all_eq_true.mp (by decide)⟩

/-- The longest hexadecimal literal takes the first letter of an `ether` that it touches. -/
theorem cutsEther_of_hex (spelled : Token.hex.Spells literal) :
    CutsEther (literal ++ ['e']) ['t', 'h', 'e', 'r'] := by
  obtain ⟨mark, digits, rfl, isMark, some⟩ := spelled
  have longer : Token.hex.Spells ('0' :: mark :: digits ++ ['e']) := by
    refine ⟨mark, digits ++ ['e'], rfl, isMark, by simp, ?_⟩
    exact List.forall_mem_append.mpr ⟨some.2, List.forall_mem_singleton.mpr (by decide)⟩
  have letters : ∀ c ∈ ['t', 'h', 'e', 'r'], isDigit 10 c = false ∧ isHexMark c = false :=
    fun c member => letters_unit .ether c (List.mem_cons_of_mem 'e' member)
  refine ⟨numeral_longest_letters rfl longer letters ?_, ⟨mark, digits, rfl, some.1⟩, [], rfl,
    longest_of_ends ther_spells nofun⟩
  rintro _ _ same
  cases same
  decide

/-- A literal and its unit are two tokens also where they touch. -/
theorem amount_joined {text : String} (isNumeral : kind.isNumeral = true)
    (spelled : kind.Spells text.toList) (blank : ∀ c ∈ blanks, isSpace c = true)
    (unit : Denomination) :
    Joined [text, unit.word] (text.toList ++ (blanks ++ unit.word.toList)) := by
  have word : Joined [unit.word] unit.word.toList := by
    have longest : Token.name.Longest unit.word.toList [] := longest_of_ends unit.word_spells nofun
    simpa using Joined.longest longest nofun .done
  cases blanks with
  | cons c blanks =>
      have ends : Ends (c :: blanks ++ unit.word.toList) := by
        rintro _ same
        cases same
        exact blank c List.mem_cons_self
      have whole : ¬ CutsEther text.toList (c :: blanks ++ unit.word.toList) := by
        rintro ⟨_, _, rest, same, _⟩
        obtain ⟨rfl, _⟩ := List.cons.inj same
        exact absurd (blank 't' List.mem_cons_self) (by decide)
      exact .word (.longest (longest_of_ends spelled ends) whole) (.skip blank word)
  | nil =>
      by_cases cut : kind = .hex ∧ unit = .ether
      · -- The longest literal takes the first letter of the unit.
        obtain ⟨rfl, rfl⟩ := cut
        exact .word (.shortened (cutsEther_of_hex spelled)) word
      · have apart : kind = .hex → ∀ c ∈ unit.word.toList.head?, isDigit 16 c = false := by
          rintro rfl
          cases unit with
          | ether => exact absurd ⟨rfl, rfl⟩ cut
          | gwei | wei =>
              rintro _ same
              cases same
              decide
        have longest := numeral_longest_letters isNumeral spelled (letters_unit unit) apart
        have whole : ¬ CutsEther text.toList unit.word.toList := by
          rintro ⟨_, _, rest, same, _⟩
          cases unit <;> cases same
        exact .word (.longest longest whole) word

end Lexer

theorem amountText_toList {word : String} : (amountText literal blanks word).toList =
    (String.ofList literal).toList ++ (blanks ++ word.toList) := by
  simp [amountText]

theorem Parser.parse_amount (isNumeral : kind.isNumeral = true) (spelled : kind.Spells literal)
    (isNumber : ∀ lexeme : Lexeme, lexeme.token = kind → lexeme.text = String.ofList literal →
      NumberLiteral lexeme expr)
    (blank : ∀ c ∈ blanks, Lexer.isSpace c = true) :
    parse limit (amountText literal blanks unit.word) = .ok (.amount expr unit) := by
  rw [← String.toList_ofList (l := literal)] at spelled
  have joined := Lexer.amount_joined isNumeral spelled blank unit
  rw [← amountText_toList] at joined
  obtain ⟨tokens, lexed, texts⟩ := lexemes_of_joined joined
  have reads : Reads tokens [String.ofList literal, unit.word] := ⟨texts, lexemes_spelled lexed⟩
  obtain ⟨number, _, rfl, token, text, reads⟩ := reads.cons kind spelled
  obtain ⟨word, rfl, named, isUnit⟩ := reads.single .name unit.word_spells
  -- `parse_complete` asks for as many nesting steps as there are lexemes, and there may be one.
  have done : read limit .atom limit [number, word] = .ok (.amount expr unit, []) := by
    rw [read_number (isNumber number token text), suffixed_unit _ named isUnit]
  have unsigned : number.token ≠ .mark .bang ∧ number.token ≠ .mark .minus := by
    rw [token]
    constructor <;> rintro rfl <;> contradiction
  exact parse_eq_ok.mpr
    ⟨_, lexed, parseTokens_eq_ok.mpr (read_widen done (by decide) trivial unsigned)⟩

theorem Numeral.Denotes.evaluate (denotes : Denotes config.maxExponent literal outcome)
    (deep : 1 ≤ config.maxDepth) (blank : ∀ c ∈ blanks, Lexer.isSpace c = true) {host : Host}
    {context : Context} :
    (Engine.ofConfig config).evaluate host context (amountText literal blanks unit.word) =
      ⟨outcome.map fun value : Nat => .big (value * unit.scale), [], context.nextId⟩ := by
  obtain ⟨kind, expr, isNumeral, spelled, isNumber, height, compiled⟩ := denotes.compiles
  have parsed : Parser.parse config.maxDepth (amountText literal blanks unit.word) =
      .ok (.amount expr unit) := Parser.parse_amount isNumeral spelled isNumber blank
  rw [Engine.evaluate_parsed parsed (by rwa [Expr.height, height]), Program.ofExpr, compiled]
  cases outcome <;> rfl

theorem digits_append_zeros {mantissa : List Char} (digits : Digits 10 mantissa) (count : Nat) :
    Digits 10 (mantissa ++ List.replicate count '0') := by
  refine ⟨by simp [digits.1], List.forall_mem_append.mpr ⟨digits.2, fun c member => ?_⟩⟩
  rw [List.eq_of_mem_replicate member]
  decide

/-- A literal before a unit is worth what its digits are by their places, in units; its form, and
what blanks there are, do not matter, and an exponent may stand for zeros. -/
theorem amounts_denote (config : Config) (deep : 1 ≤ config.maxDepth) :
    (∀ literal outcome, Numeral.Denotes config.maxExponent literal outcome →
      ∀ blanks : List Char, (∀ c ∈ blanks, Lexer.isSpace c = true) →
      ∀ word factor, (word, factor) ∈ unitWords → ∀ host context,
        (Engine.ofConfig config).evaluate host context (amountText literal blanks word) =
          ⟨outcome.map fun value : Nat => .big (value * factor), [], context.nextId⟩) ∧
    (∀ mantissa mark exponent, Digits 10 mantissa → (mark = 'e' ∨ mark = 'E') → Digits 10 exponent →
      positional 10 exponent ≤ config.maxExponent →
      ∀ blanks blanks' : List Char, (∀ c ∈ blanks, Lexer.isSpace c = true) →
      (∀ c ∈ blanks', Lexer.isSpace c = true) →
      ∀ word factor, (word, factor) ∈ unitWords → ∀ host context,
        (Engine.ofConfig config).evaluate host context
            (amountText (mantissa ++ mark :: exponent) blanks word) =
          (Engine.ofConfig config).evaluate host context
            (amountText (mantissa ++ List.replicate (positional 10 exponent) '0') blanks' word)) := by
  constructor
  · intro literal outcome denotes blanks blank word factor listed host context
    obtain ⟨unit, rfl, scale⟩ := unitWords_denomination listed
    rw [denotes.evaluate deep blank, scale]
  · intro mantissa mark exponent digits isMark some small blanks blanks' blank blank' word factor listed
      host context
    obtain ⟨unit, rfl, _⟩ := unitWords_denomination listed
    have written : Numeral.Denotes config.maxExponent _ _ := .scientific isMark digits some small
    have zeros : Numeral.Denotes config.maxExponent _ _ :=
      .decimal (digits_append_zeros digits (positional 10 exponent))
    rw [positional_append_zeros] at zeros
    rw [written.evaluate deep blank, zeros.evaluate deep blank']

/-- The last digit is the letter that the unit begins with, an exponent is above the limit, and one
stands for two zeros. -/
theorem amounts_denote_touching :
    let config : Config := ⟨.error, 3, 1⟩
    1 ≤ config.maxDepth ∧ ∀ host context,
      (Engine.ofConfig config).evaluate host context "0xFeether" =
        ⟨.ok (.big 254000000000000000000), [], context.nextId⟩ ∧
      (Engine.ofConfig config).evaluate host context "2e12\twei" =
        ⟨.error (.exponentOverflow 12 3), [], context.nextId⟩ ∧
      (Engine.ofConfig config).evaluate host context "02E2gwei" =
        (Engine.ofConfig config).evaluate host context "0200 gwei" := by
  intro config
  have deep : 1 ≤ config.maxDepth := by decide
  obtain ⟨denote, exponents⟩ := amounts_denote config deep
  have hex : Digits 16 ['F', 'e'] := ⟨by decide, List.all_eq_true.mp (by decide)⟩
  have two : Digits 10 ['2'] := ⟨by decide, List.all_eq_true.mp (by decide)⟩
  have twelve : Digits 10 ['1', '2'] := ⟨by decide, List.all_eq_true.mp (by decide)⟩
  have padded : Digits 10 ['0', '2'] := ⟨by decide, List.all_eq_true.mp (by decide)⟩
  have tab : ∀ c ∈ ['\t'], Lexer.isSpace c = true := List.all_eq_true.mp (by decide)
  have space : ∀ c ∈ [' '], Lexer.isSpace c = true := List.all_eq_true.mp (by decide)
  refine ⟨deep, fun host context => ⟨?_, ?_, ?_⟩⟩
  · exact denote _ _ (.hex (.inl rfl) hex) [] nofun "ether" (10 ^ 18) (by simp [unitWords]) host
      context
  · exact denote _ _ (.overflow (.inl rfl) two twelve (by decide)) ['\t'] tab "wei" 1
      (by simp [unitWords]) host context
  · exact exponents ['0', '2'] 'E' ['2'] padded (.inr rfl) two (by decide) [] [' '] nofun space "gwei"
      (10 ^ 9) (by simp [unitWords]) host context

end

end EtherCalc
