import EtherCalc.Proofs.Lexer.Spelling
import Mathlib

namespace EtherCalc

namespace Lexer

/-- What follows a word does not belong to it: there is a blank or nothing. -/
def Ends (after : List Char) : Prop :=
  ∀ c ∈ after.head?, isSpace c = true

variable {first mark : Char} {rest after digits : List Char}

theorem isSpace_cases {c : Char} (blank : isSpace c = true) :
    c = ' ' ∨ c = '\t' ∨ c = '\r' ∨ c = '\n' ∨ c = '\x0c' := by
  simpa only [isSpace, Bool.or_eq_true, beq_iff_eq, or_assoc] using blank

/-- A test that no blank passes fails where a word ends. -/
theorem Ends.head?_fails {test : Char → Bool} (ends : Ends after)
    (none : [' ', '\t', '\r', '\n', '\x0c'].all (!test ·) = true) :
    ∀ c ∈ after.head?, test c = false := by
  intro c member
  rw [List.all_eq_true] at none
  rcases isSpace_cases (ends c member) with rfl | rfl | rfl | rfl | rfl <;> simpa using none _ (by simp)

theorem takeWhile_stops {test : Char → Bool} (passes : ∀ c ∈ rest, test c = true)
    (stops : ∀ c ∈ after.head?, test c = false) : (rest ++ after).takeWhile test = rest := by
  rw [List.takeWhile_append_of_pos passes]
  cases after with
  | nil => simp
  | cons c after => simp [stops c rfl]

/-- The marks of the two forms of literal that are no plain digits. -/
def isHexMark (c : Char) : Bool :=
  c == 'x' || c == 'X'

def isExponentMark (c : Char) : Bool :=
  c == 'e' || c == 'E'

theorem hexTail?_none (other : ∀ c ∈ rest.head?, isHexMark c = false) : hexTail? rest = none := by
  cases rest with
  | nil => rfl
  | cons c rest =>
      have other : (c == 'x' || c == 'X') = false := other c rfl
      simp [hexTail?, other]

theorem exponentTail?_none (other : ∀ c ∈ rest.head?, isExponentMark c = false) :
    exponentTail? rest = none := by
  cases rest with
  | nil => rfl
  | cons c rest =>
      have other : (c == 'e' || c == 'E') = false := other c rfl
      simp [exponentTail?, other]

theorem hexTail?_some (isMark : mark = 'x' ∨ mark = 'X') (some : Digits 16 digits)
    (ends : Ends after) :
    hexTail? (mark :: digits ++ after) = .some (digits.length + 1) := by
  have whole : (digits ++ after).takeWhile (isDigit 16) = digits :=
    takeWhile_stops some.2 (ends.head?_fails (by decide))
  have isMark : (mark == 'x' || mark == 'X') = true := by simpa using isMark
  simp [hexTail?, whole, isMark, some.1]

theorem exponentTail?_some (isMark : mark = 'e' ∨ mark = 'E') (some : Digits 10 digits)
    (ends : Ends after) :
    exponentTail? (mark :: digits ++ after) = .some (digits.length + 1) := by
  have whole : (digits ++ after).takeWhile (isDigit 10) = digits :=
    takeWhile_stops some.2 (ends.head?_fails (by decide))
  have isMark : (mark == 'e' || mark == 'E') = true := by simpa using isMark
  simp [exponentTail?, whole, isMark, some.1]

/-- A zero before plain digits is no prefix of a hexadecimal literal. -/
theorem no_hexTail (all : ∀ c ∈ rest, isDigit 10 c = true)
    (other : ∀ c ∈ after.head?, isHexMark c = false) :
    (if first == '0' then hexTail? (rest ++ after) else none) = none := by
  have none : hexTail? (rest ++ after) = .none := by
    apply hexTail?_none
    cases rest with
    | nil => exact other
    | cons c rest =>
        intro next member
        obtain rfl : c = next := Option.some.inj member
        have digit := all c List.mem_cons_self
        cases isMark : isHexMark c with
        | false => rfl
        | true =>
            rcases Bool.or_eq_true_iff.mp isMark with same | same <;> cases beq_iff_eq.mp same <;>
              contradiction
  rw [none, ite_self]

theorem numberAt_decimal (some : Digits 10 (first :: rest)) (ends : Ends after) :
    numberAt first (rest ++ after) = (.decimal, rest.length) := by
  have all : ∀ c ∈ rest, isDigit 10 c = true := fun c member => some.2 c (by simp [member])
  have whole : (rest ++ after).takeWhile (isDigit 10) = rest :=
    takeWhile_stops all (ends.head?_fails (by decide))
  simp only [numberAt, no_hexTail all (ends.head?_fails (by decide)), whole, List.drop_left,
    exponentTail?_none (ends.head?_fails (by decide))]

theorem numberAt_hex (isMark : mark = 'x' ∨ mark = 'X') (some : Digits 16 digits)
    (ends : Ends after) :
    numberAt '0' (mark :: digits ++ after) = (.hex, digits.length + 1) := by
  simp only [numberAt, hexTail?_some isMark some ends]
  rfl

theorem numberAt_scientific (isMark : mark = 'e' ∨ mark = 'E')
    (mantissa : Digits 10 (first :: rest)) (exponent : Digits 10 digits) (ends : Ends after) :
    numberAt first (rest ++ (mark :: digits ++ after)) =
      (.scientific, rest.length + (digits.length + 1)) := by
  have all : ∀ c ∈ rest, isDigit 10 c = true := fun c member => mantissa.2 c (by simp [member])
  have stops : isDigit 10 mark = false := by rcases isMark with rfl | rfl <;> decide
  have other : isHexMark mark = false := by rcases isMark with rfl | rfl <;> decide
  have whole : (rest ++ (mark :: digits ++ after)).takeWhile (isDigit 10) = rest :=
    takeWhile_stops all (by simpa using stops)
  have plain : (if first == '0' then hexTail? (rest ++ (mark :: digits ++ after)) else none) =
      none := no_hexTail all (by simpa using other)
  simp only [numberAt, plain, whole, List.drop_left, exponentTail?_some isMark exponent ends]

theorem isDigit_ten {c : Char} (digit : isDigit 10 c = true) : '0' ≤ c ∧ c ≤ '9' := by
  by_cases inside : '0' ≤ c ∧ c ≤ '9'
  · exact inside
  · have none : digit? 10 c = none := by
      simp only [digit?, if_neg inside]
      split
      · simp
      · split <;> simp
    simp [isDigit, none] at digit

theorem startsName_not_digit (starts : startsName first = true) : isDigit 10 first = false := by
  cases digit : isDigit 10 first with
  | false => rfl
  | true =>
      obtain ⟨low, high⟩ := isDigit_ten digit
      rw [Char.le_def, UInt32.le_iff_toNat_le] at low high
      simp only [startsName, Char.isAlpha, Char.isUpper, Char.isLower, Bool.or_eq_true,
        decide_eq_true_eq, beq_iff_eq, Bool.and_eq_true, UInt32.le_iff_toNat_le,
        ge_iff_le] at starts
      rcases starts with ((⟨letter, _⟩ | ⟨letter, _⟩) | rfl) | rfl
      · exact absurd (Nat.le_trans letter high) (by decide)
      · exact absurd (Nat.le_trans letter high) (by decide)
      · exact absurd high (by decide)
      · exact absurd low (by decide)

/-- An equals sign would make a longer mark of it. -/
def growsWithEquals : Mark → Bool
  | .bang | .less | .greater => true
  | _ => false

theorem markAt?_of_spelling {symbol : Mark} (spelled : symbol.spelling.toList = first :: rest)
    (plain : growsWithEquals symbol = true → after.head? ≠ some '=') :
    markAt? first (rest ++ after) = some (symbol, rest.length) := by
  cases symbol
  all_goals
    simp only [Mark.spelling, String.reduceToList, List.cons.injEq] at spelled
    obtain ⟨rfl, rfl⟩ := spelled
    first
      | rfl
      | simp [markAt?, plain rfl]

theorem tokenAt?_of_mark {symbol : Mark} (spelled : symbol.spelling.toList = first :: rest)
    (plain : growsWithEquals symbol = true → after.head? ≠ some '=') :
    tokenAt? first (rest ++ after) = some (.mark symbol, rest.length) := by
  have other : isDigit 10 first = false ∧ startsName first = false ∧ first ≠ '\'' := by
    cases symbol <;> cases spelled.symm <;> decide
  simp only [tokenAt?, other.1, other.2.1, beq_false_of_ne other.2.2, markAt?_of_spelling spelled plain]
  rfl

/-- Before a blank or the end the longest token is the whole word. -/
theorem tokenAt?_of_spells {kind : Token} (spelled : kind.Spells (first :: rest))
    (ends : Ends after) : tokenAt? first (rest ++ after) = some (kind, rest.length) := by
  cases kind with
  | decimal =>
      have digit : isDigit 10 first = true := spelled.2 first List.mem_cons_self
      rw [tokenAt?, if_pos digit, numberAt_decimal spelled ends]
  | hex =>
      obtain ⟨mark, digits, same, isMark, some⟩ := spelled
      cases same
      rw [tokenAt?, if_pos (by decide), numberAt_hex isMark some ends]
      rfl
  | scientific =>
      obtain ⟨mantissa, mark, exponent, same, isMark, digits, some⟩ := spelled
      cases mantissa with
      | nil => exact absurd rfl digits.1
      | cons head mantissa =>
          obtain ⟨rfl, rfl⟩ : first = head ∧ rest = mantissa ++ mark :: exponent :=
            List.cons.inj same
          have digit : isDigit 10 first = true := digits.2 first List.mem_cons_self
          rw [List.append_assoc, tokenAt?, if_pos digit, numberAt_scientific isMark digits some ends,
            List.length_append]
          rfl
  | string =>
      obtain ⟨inside, same, unquoted⟩ := spelled
      obtain ⟨rfl, rfl⟩ := List.cons.inj same
      have whole : (inside ++ '\'' :: after).takeWhile (· != '\'') = inside :=
        takeWhile_stops (fun c member => bne_iff_ne.mpr fun quote => unquoted (quote ▸ member))
          (by simp)
      have closed : stringTail? (inside ++ '\'' :: after) = some (inside.length + 1) := by
        rw [stringTail?, whole, if_pos (by simp)]
      have plain : isDigit 10 '\'' = false ∧ startsName '\'' = false := by decide
      simp [tokenAt?, plain, closed]
  | name =>
      obtain ⟨head, tail, same, starts, continues⟩ := spelled
      cases same
      have whole : (rest ++ after).takeWhile continuesName = rest :=
        takeWhile_stops continues (ends.head?_fails (by decide))
      rw [tokenAt?, if_neg (by rw [startsName_not_digit starts]; decide), if_pos starts, whole]
  | mark symbol =>
      have other : ∀ c ∈ after.head?, (c == '=') = false := ends.head?_fails (by decide)
      exact tokenAt?_of_mark spelled.symm fun _ equals => absurd (other '=' equals) (by decide)

/-- The characters are the words in their order, with one blank or more between any two and any
number of blanks before the first and after the last. -/
inductive Spaced : List String → List Char → Prop where
  | done : Spaced [] []
  | blank {c : Char} {words : List String} {chars : List Char} (isBlank : isSpace c = true)
      (later : Spaced words chars) : Spaced words (c :: chars)
  | word {word : String} {words : List String} {chars : List Char} (ends : Ends chars)
      (later : Spaced words chars) : Spaced (word :: words) (word.toList ++ chars)

def spread (words : List String) : List Char :=
  words.flatMap fun word => word.toList ++ [' ']

theorem spaced_spread (words : List String) : Spaced words (spread words) := by
  induction words with
  | nil => exact .done
  | cons word rest ih =>
      have ends : Ends (' ' :: spread rest) := by
        rintro c same
        cases same
        rfl
      simpa [spread] using Spaced.word ends (.blank rfl ih)

/-- Every word is spelled as some kind of token has it. -/
def Readable (words : List String) : Prop :=
  ∀ word ∈ words, ∃ kind : Token, kind.Spells word.toList

/-- No lexeme begins where the one before it stops. -/
def Apart : List Lexeme → Prop
  | first :: second :: rest => first.stop < second.start ∧ Apart (second :: rest)
  | _ => True

theorem Apart.cons {lexeme : Lexeme} {found : List Lexeme} (apart : Apart found)
    (gap : ∀ next ∈ found.head?, lexeme.stop < next.start) : Apart (lexeme :: found) := by
  cases found with
  | nil => trivial
  | cons next rest => exact ⟨gap next rfl, apart⟩

/-- Only a lexeme that touches the one before it can give its letters back. -/
theorem Apart.handBack {found : List Lexeme} (apart : Apart found) : handBack found = found := by
  induction found using handBack.induct with
  | case1 first second rest splits ih =>
      obtain ⟨_, touches, _⟩ := splitsEther_spec splits
      exact absurd touches (Nat.ne_of_lt apart.1)
  | case2 first second rest keeps ih => rw [Lexer.handBack, if_neg keeps, ih apart.2]
  | case3 found single => rw [Lexer.handBack.eq_2 found single]

theorem byteLength_toList (text : String) : byteLength text.toList = text.utf8ByteSize := by
  have all : ∀ chars, byteLength chars = (String.ofList chars).utf8ByteSize := by
    intro chars
    induction chars with
    | nil => rfl
    | cons c rest ih =>
        rw [← List.singleton_append, String.ofList_append, String.utf8ByteSize_append, ← ih]
        simp [byteLength]
  rw [all, String.ofList_toList]

theorem spells_cons {kind : Token} {chars : List Char} (spelled : kind.Spells chars) :
    ∃ first rest, chars = first :: rest := by
  cases chars with
  | cons first rest => exact ⟨first, rest, rfl⟩
  | nil =>
      cases kind with
      | mark symbol => cases symbol <;> cases spelled
      | decimal => exact absurd rfl spelled.1
      | scientific =>
          obtain ⟨mantissa, mark, exponent, same, _⟩ := spelled
          simp at same
      | hex | name =>
          obtain ⟨_, _, same, _⟩ := spelled
          contradiction
      | string =>
          obtain ⟨_, same, _⟩ := spelled
          contradiction

/-- A text has the form of one kind of token at most. -/
theorem spells_unique {kind other : Token} {chars : List Char} (spelled : kind.Spells chars)
    (spelledToo : other.Spells chars) : kind = other := by
  obtain ⟨first, rest, rfl⟩ := spells_cons spelled
  have ends : Ends [] := nofun
  have cut := tokenAt?_of_spells spelled ends
  rw [tokenAt?_of_spells spelledToo ends] at cut
  cases cut
  rfl

theorem tokenAt?_blank (blank : isSpace first = true) : tokenAt? first rest = none := by
  rcases isSpace_cases blank with rfl | rfl | rfl | rfl | rfl <;> rfl

theorem not_blank {kind : Token} (spelled : kind.Spells (first :: rest)) : isSpace first = false := by
  cases blank : isSpace first with
  | false => rfl
  | true =>
      have ends : Ends [] := nofun
      have cut := tokenAt?_of_spells spelled ends
      rw [tokenAt?_blank blank] at cut
      contradiction

theorem Scanned.word {kind : Token} {word : String} {offset : Nat} {found : List Lexeme}
    (spelled : kind.Spells word.toList) (ends : Ends after)
    (later : Scanned (offset + word.utf8ByteSize) after found) :
    Scanned offset (word.toList ++ after) (⟨kind, word, offset⟩ :: found) := by
  obtain ⟨first, rest, chars⟩ := spells_cons spelled
  have whole : word = String.ofList (first :: rest) := by rw [← chars, String.ofList_toList]
  rw [chars] at spelled
  rw [← byteLength_toList, chars] at later
  have taken : (rest ++ after).take rest.length = rest := List.take_left
  have left : (rest ++ after).drop rest.length = after := List.drop_left
  have scanned : Scanned offset (first :: (rest ++ after))
      (⟨kind, String.ofList (first :: (rest ++ after).take rest.length), offset⟩ :: found) :=
    .token (not_blank spelled) (tokenAt?_of_spells spelled ends) (by rwa [taken, left])
  rw [taken, ← whole] at scanned
  rwa [chars]

theorem scanned_of_spaced {words : List String} {chars : List Char} (spaced : Spaced words chars)
    (readable : Readable words) : ∀ offset, ∃ found, Scanned offset chars found ∧
      found.map Lexeme.text = words ∧ Apart found ∧
        ∀ next ∈ found.head?, offset ≤ next.start ∧ (Ends chars → offset < next.start) := by
  induction spaced with
  | done =>
      intro offset
      exact ⟨[], .done, rfl, trivial, by simp⟩
  | @blank c words chars isBlank later ih =>
      intro offset
      obtain ⟨found, scanned, texts, apart, start⟩ := ih readable (offset + c.utf8Size)
      refine ⟨found, .space isBlank scanned, texts, apart, fun next member => ?_⟩
      have before := (start next member).1
      have size := Char.utf8Size_pos c
      exact ⟨by omega, fun _ => by omega⟩
  | @word word words chars ends later ih =>
      intro offset
      obtain ⟨kind, spelled⟩ := readable word (by simp)
      have others : Readable words := fun other member => readable other (by simp [member])
      obtain ⟨found, scanned, texts, apart, start⟩ := ih others (offset + word.utf8ByteSize)
      refine ⟨⟨kind, word, offset⟩ :: found, scanned.word spelled ends, by simp [texts],
        apart.cons fun next member => (start next member).2 ends, ?_⟩
      rintro next same
      obtain rfl := Option.some.inj same
      refine ⟨Nat.le_refl _, fun blank => ?_⟩
      obtain ⟨first, rest, chars⟩ := spells_cons spelled
      rw [chars] at spelled blank
      have notBlank := not_blank spelled
      rw [blank first rfl] at notBlank
      contradiction

end Lexer

theorem lexemes_of_spaced {words : List String} {source : String}
    (spaced : Lexer.Spaced words source.toList) (readable : Lexer.Readable words) :
    ∃ tokens, lexemes source = .ok tokens ∧ tokens.map Lexeme.text = words := by
  obtain ⟨found, scanned, texts, apart, _⟩ := Lexer.scanned_of_spaced spaced readable 0
  refine ⟨found, ?_, texts⟩
  rw [lexemes, scanned.scan]
  simp only [apart.handBack]

end EtherCalc
