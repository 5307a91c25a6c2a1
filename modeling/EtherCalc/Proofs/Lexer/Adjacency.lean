import EtherCalc.Proofs.Lexer.Tokenization
import EtherCalc.Proofs.Numeral.Positional
import Mathlib

namespace EtherCalc

def Token.isNumeral : Token → Bool
  | .hex | .scientific | .decimal => true
  | _ => false

namespace Lexer

variable {offset : Nat} {first : Char} {chars text after rest : List Char}
variable {found tokens : List Lexeme} {kind : Token} {words : List String}

theorem handBack_name {lexeme : Lexeme} (named : lexeme.token = .name) :
    handBack (lexeme :: found) = lexeme :: handBack found := by
  cases found with
  | nil => rfl
  | cons second rest => rw [handBack, if_neg (by simp [splitsEther, named])]

theorem Scanned.longest (longest : kind.Longest text after)
    (later : Scanned (offset + byteLength text) after found) :
    Scanned offset (text ++ after) (⟨kind, String.ofList text, offset⟩ :: found) := by
  refine scanned_of_scan ?_
  rw [scan_token longest, later.scan]
  rfl

/-- A text that is cut by the rule is scanned, and `handBack` mends what the rule has mended. -/
theorem Tokenized.scanned (tokenized : Tokenized offset chars tokens) :
    ∃ found, Scanned offset chars found ∧ handBack found = tokens := by
  induction tokenized with
  | done => exact ⟨[], .done, rfl⟩
  | blank isBlank later ih =>
      obtain ⟨found, scanned, rfl⟩ := ih
      exact ⟨found, .space isBlank scanned, rfl⟩
  | @token offset kind text after _ cut later ih =>
      obtain ⟨found, scanned, rfl⟩ := ih
      cases cut with
      | longest longest whole =>
          refine ⟨_, scanned.longest longest, ?_⟩
          cases found with
          | nil => rfl
          | cons second rest =>
              rw [handBack, if_neg]
              intro splits
              obtain ⟨_, cuts, _⟩ := cutsEther_of_splits longest scanned splits
              exact whole cuts
      | @shortened text after cuts =>
          -- The whole `ether` was scanned here; the longest tokens are the literal and `ther`.
          obtain ⟨rest, rfl, name⟩ := cuts.name
          have ether : Token.name.Longest ['e', 't', 'h', 'e', 'r'] rest := ether_longest name
          obtain ⟨others, rfl, scannedOthers⟩ := scanned.of_longest ether
          have size : byteLength (text ++ ['e']) = byteLength text + 1 := byteLength_append _ _
          have scannedName : Scanned (offset + byteLength (text ++ ['e']))
              (['t', 'h', 'e', 'r'] ++ rest)
              (⟨.name, "ther", offset + byteLength (text ++ ['e'])⟩ :: others) := by
            refine Scanned.longest name ?_
            rw [size]
            exact scannedOthers
          have scannedAll := scannedName.longest cuts.longest
          rw [List.append_assoc] at scannedAll
          obtain ⟨_, _, same, splits⟩ := cuts.splits scannedName
          cases same
          refine ⟨_, scannedAll, ?_⟩
          rw [handBack, if_pos splits, handBack_name rfl, String.toList_ofList, List.dropLast_concat,
            size]
          rfl

/-- The characters are the words in their order, each cut off by the rule, and blanks. -/
inductive Joined : List String → List Char → Prop where
  | done : Joined [] []
  | blank {c : Char} {words : List String} {chars : List Char} (isBlank : isSpace c = true)
      (later : Joined words chars) : Joined words (c :: chars)
  | word {kind : Token} {word : String} {words : List String} {chars : List Char}
      (cut : Cut kind word.toList chars) (later : Joined words chars) :
      Joined (word :: words) (word.toList ++ chars)

theorem Joined.tokenized (joined : Joined words chars) :
    ∀ offset, ∃ tokens, Tokenized offset chars tokens ∧ tokens.map Lexeme.text = words := by
  induction joined with
  | done => exact fun offset => ⟨[], .done, rfl⟩
  | @blank c words chars isBlank later ih =>
      intro offset
      obtain ⟨tokens, tokenized, texts⟩ := ih (offset + c.utf8Size)
      exact ⟨tokens, .blank isBlank tokenized, texts⟩
  | @word kind word words chars cut later ih =>
      intro offset
      obtain ⟨tokens, tokenized, texts⟩ := ih (offset + byteLength word.toList)
      exact ⟨_, .token cut tokenized, by rw [List.map_cons, texts, String.ofList_toList]⟩

theorem Joined.skip {blanks : List Char} (blank : ∀ c ∈ blanks, isSpace c = true)
    (later : Joined words chars) : Joined words (blanks ++ chars) := by
  induction blanks with
  | nil => exact later
  | cons first blanks ih =>
      obtain ⟨here, blank⟩ := List.forall_mem_cons.mp blank
      exact .blank here (ih blank)

/-- A token that is no hexadecimal literal stands whole. -/
theorem Joined.longest {word : String} (longest : kind.Longest word.toList after) (other : kind ≠ .hex)
    (later : Joined words after) : Joined (word :: words) (word.toList ++ after) :=
  .word (.longest longest (not_cutsEther longest other)) later

theorem longest_of_ends (spelled : kind.Spells text) (ends : Ends after) : kind.Longest text after := by
  obtain ⟨first, rest, rfl⟩ := spells_cons spelled
  have longest := tokenAt?_longest (tokenAt?_of_spells spelled ends)
  rwa [List.take_left, List.drop_left] at longest

theorem isDigit_continues (digit : isDigit 16 first = true) : continuesName first = true := by
  have all : digitChars.all continuesName = true := by decide
  exact List.all_eq_true.mp all first (mem_digitChars digit)

theorem numeral_cons (isNumeral : kind.isNumeral = true) (spelled : kind.Spells text) :
    ∃ first rest, text = first :: rest ∧ isDigit 10 first = true := by
  cases kind with
  | decimal =>
      obtain ⟨first, rest, rfl⟩ := spells_cons spelled
      exact ⟨first, rest, rfl, spelled.2 first List.mem_cons_self⟩
  | hex =>
      obtain ⟨mark, digits, rfl, _⟩ := spelled
      exact ⟨'0', _, rfl, by decide⟩
  | scientific =>
      obtain ⟨mantissa, mark, exponent, rfl, _, digits, _⟩ := spelled
      obtain ⟨first, rest, rfl⟩ := List.exists_cons_of_ne_nil digits.1
      exact ⟨first, _, rfl, digits.2 first List.mem_cons_self⟩
  | _ => contradiction

theorem isNumeral_of_digit (digit : isDigit 10 first = true)
    (spelled : kind.Spells (first :: rest)) : kind.isNumeral = true := by
  cases kind with
  | decimal | hex | scientific => rfl
  | name =>
      obtain ⟨_, _, same, starts, _⟩ := spelled
      cases same
      cases digit.symm.trans (startsName_not_digit starts)
  | string =>
      obtain ⟨_, same, _⟩ := spelled
      cases same
      contradiction
  | mark symbol => cases symbol <;> cases spelled <;> contradiction

theorem numeral_continues (isNumeral : kind.isNumeral = true) (spelled : kind.Spells text) :
    ∀ c ∈ text, continuesName c = true := by
  have decimal {digits : List Char} (some : Digits 10 digits) :
      ∀ c ∈ digits, continuesName c = true :=
    fun c member => isDigit_continues (Numeral.isDigit_sixteen (some.2 c member))
  cases kind with
  | decimal => exact decimal spelled
  | hex =>
      obtain ⟨mark, digits, rfl, isMark, some⟩ := spelled
      refine List.forall_mem_cons.mpr ⟨by decide, List.forall_mem_cons.mpr ⟨?_, ?_⟩⟩
      · rcases isMark with rfl | rfl <;> decide
      · exact fun c member => isDigit_continues (some.2 c member)
  | scientific =>
      obtain ⟨mantissa, mark, exponent, rfl, isMark, digits, some⟩ := spelled
      refine List.forall_mem_append.mpr ⟨decimal digits, List.forall_mem_cons.mpr ⟨?_, decimal some⟩⟩
      rcases isMark with rfl | rfl <;> decide
  | _ => contradiction

/-- A number ends before what cannot continue a name. -/
theorem numeral_longest (isNumeral : kind.isNumeral = true) (spelled : kind.Spells text)
    (stops : ∀ c ∈ after.head?, continuesName c = false) : kind.Longest text after := by
  refine ⟨spelled, fun other more left split spelledToo => ?_⟩
  obtain ⟨first, rest, rfl, digit⟩ := numeral_cons isNumeral spelled
  cases more with
  | nil => rfl
  | cons c more =>
      subst split
      have continues := numeral_continues (isNumeral_of_digit digit spelledToo) spelledToo c (by simp)
      rw [stops c rfl] at continues
      contradiction

theorem numeral_no_hexMark (isNumeral : kind.isNumeral = true) (notHex : kind ≠ .hex)
    (spelled : kind.Spells text) : ∀ c ∈ text, isHexMark c = false := by
  have decimal {digits : List Char} (some : Digits 10 digits) : ∀ c ∈ digits, isHexMark c = false :=
    fun c member => not_hexMark_of_digit (some.2 c member)
  cases kind with
  | decimal => exact decimal spelled
  | scientific =>
      obtain ⟨mantissa, mark, exponent, rfl, isMark, digits, some⟩ := spelled
      refine List.forall_mem_append.mpr ⟨decimal digits, List.forall_mem_cons.mpr ⟨?_, decimal some⟩⟩
      rcases isMark with rfl | rfl <;> decide
  | _ => contradiction

/-- A number ends before letters, but for hexadecimal digits and the mark that comes before them. -/
theorem numeral_longest_letters (isNumeral : kind.isNumeral = true) (spelled : kind.Spells text)
    (letters : ∀ c ∈ after, isDigit 10 c = false ∧ isHexMark c = false)
    (apart : kind = .hex → ∀ c ∈ after.head?, isDigit 16 c = false) : kind.Longest text after := by
  refine ⟨spelled, fun other more left split spelledToo => ?_⟩
  obtain ⟨first, rest, rfl, digit⟩ := numeral_cons isNumeral spelled
  have isNumeralToo : other.isNumeral = true := isNumeral_of_digit digit spelledToo
  cases more with
  | nil => rfl
  | cons c more =>
      subst split
      have letters : ∀ d ∈ c :: more, isDigit 10 d = false ∧ isHexMark d = false :=
        fun d member => letters d (List.mem_append_left _ member)
      cases other with
      | decimal =>
          have digit := spelledToo.2 c (by simp)
          rw [(letters c List.mem_cons_self).1] at digit
          contradiction
      | scientific =>
          -- The last character is a digit of the exponent.
          obtain ⟨mantissa, mark, exponent, same, _, _, some⟩ := spelledToo
          have last := congrArg List.getLast? same
          rw [List.getLast?_append_of_ne_nil _ (List.cons_ne_nil _ _),
            List.getLast?_append_of_ne_nil _ (List.cons_ne_nil _ _),
            List.getLast?_cons_of_ne_nil some.1, List.getLast?_eq_some_getLast some.1] at last
          have digit := some.2 _ (List.getLast_mem some.1)
          rw [(letters _ (List.mem_of_getLast? last)).1] at digit
          contradiction
      | hex =>
          obtain ⟨mark, digits, same, isMark, some⟩ := spelledToo
          by_cases isHex : kind = .hex
          · subst isHex
            obtain ⟨_, digits', sameToo, _⟩ := spelled
            cases sameToo
            cases same
            have digit := some.2 c (by simp)
            rw [apart rfl c rfl] at digit
            contradiction
          · have other : ∀ d ∈ first :: rest ++ c :: more, isHexMark d = false :=
              List.forall_mem_append.mpr ⟨numeral_no_hexMark isNumeral isHex spelled,
                fun d member => (letters d member).2⟩
            have plain := other mark (by simp [same])
            rcases isMark with rfl | rfl <;> contradiction
      | _ => contradiction

theorem mark_longest {symbol : Mark}
    (plain : growsWithEquals symbol = true → after.head? ≠ some '=') :
    (Token.mark symbol).Longest symbol.spelling.toList after := by
  have spells : (Token.mark symbol).Spells symbol.spelling.toList := rfl
  obtain ⟨first, rest, spelled⟩ := spells_cons spells
  have longest := tokenAt?_longest (tokenAt?_of_mark spelled plain)
  rwa [List.take_left, List.drop_left, ← spelled] at longest

theorem Joined.mark (symbol : Mark) (plain : growsWithEquals symbol = true → after.head? ≠ some '=')
    (later : Joined words after) :
    Joined (symbol.spelling :: words) (symbol.spelling.toList ++ after) :=
  .longest (mark_longest plain) nofun later

end Lexer

section

variable {source : String} {tokens : List Lexeme} {words : List String}

theorem lexemes_of_tokenized (tokenized : Lexer.Tokenized 0 source.toList tokens) :
    lexemes source = .ok tokens := by
  obtain ⟨found, scanned, rfl⟩ := tokenized.scanned
  rw [lexemes, scanned.scan]

/-- Words that the rule cuts apart are the lexemes of their source. -/
theorem lexemes_of_joined (joined : Lexer.Joined words source.toList) :
    ∃ tokens, lexemes source = .ok tokens ∧ tokens.map Lexeme.text = words := by
  obtain ⟨tokens, tokenized, texts⟩ := joined.tokenized 0
  exact ⟨tokens, lexemes_of_tokenized tokenized, texts⟩

end

end EtherCalc
