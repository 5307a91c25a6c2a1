import EtherCalc.Proofs.Lexer.Scanning

namespace EtherCalc

/-- One or more digits. -/
def Digits (base : Nat) (chars : List Char) : Prop :=
  chars ≠ [] ∧ ∀ c ∈ chars, isDigit base c = true

/-- The pattern of a kind of token. -/
def Token.Spells : Token → List Char → Prop
  | .hex, chars =>
      ∃ mark digits, chars = '0' :: mark :: digits ∧ (mark = 'x' ∨ mark = 'X') ∧ Digits 16 digits
  | .scientific, chars =>
      ∃ mantissa mark exponent, chars = mantissa ++ mark :: exponent ∧
        (mark = 'e' ∨ mark = 'E') ∧ Digits 10 mantissa ∧ Digits 10 exponent
  | .decimal, chars => Digits 10 chars
  | .string, chars => ∃ inside, chars = '\'' :: inside ++ ['\''] ∧ '\'' ∉ inside
  | .name, chars =>
      ∃ first rest, chars = first :: rest ∧ Lexer.startsName first = true ∧
        ∀ c ∈ rest, Lexer.continuesName c = true
  | .mark symbol, chars => chars = symbol.spelling.toList

/-- Every lexeme is spelled as its kind has it. -/
def Spelled (tokens : List Lexeme) : Prop :=
  ∀ lexeme ∈ tokens, lexeme.token.Spells lexeme.text.toList

theorem Spelled.before {before after : List Lexeme} (spelled : Spelled (before ++ after)) :
    Spelled before :=
  fun lexeme member => spelled lexeme (List.mem_append_left _ member)

theorem Spelled.of_append {before after : List Lexeme} (spelled : Spelled (before ++ after)) :
    Spelled after :=
  fun lexeme member => spelled lexeme (List.mem_append_right _ member)

theorem Spelled.tail {next : Lexeme} {rest : List Lexeme} (spelled : Spelled (next :: rest)) :
    Spelled rest :=
  fun lexeme member => spelled lexeme (List.mem_cons_of_mem _ member)

theorem Spelled.append {before after : List Lexeme} (spelled : Spelled before)
    (spelledAfter : Spelled after) : Spelled (before ++ after) :=
  fun lexeme member => (List.mem_append.mp member).elim (spelled lexeme) (spelledAfter lexeme)

namespace Lexer

variable {first : Char} {rest mantissa : List Char} {token : Token} {length : Nat}

theorem take_takeWhile (p : Char → Bool) (chars : List Char) :
    chars.take (chars.takeWhile p).length = chars.takeWhile p :=
  (List.prefix_iff_eq_take.mp (List.takeWhile_prefix p)).symm

theorem takeWhile_all (p : Char → Bool) (chars : List Char) :
    ∀ c ∈ chars.takeWhile p, p c = true :=
  List.all_eq_true.mp List.all_takeWhile

theorem digits_takeWhile {base : Nat} (some : (rest.takeWhile (isDigit base)).length ≠ 0) :
    Digits base (rest.takeWhile (isDigit base)) :=
  ⟨fun none => some (by rw [none]; rfl), takeWhile_all (isDigit base) rest⟩

theorem hexTail?_spells (found : hexTail? rest = some length) :
    Token.hex.Spells ('0' :: rest.take length) := by
  cases rest with
  | nil => contradiction
  | cons mark rest =>
      simp only [hexTail?, Option.ite_none_right_eq_some, Bool.and_eq_true, Bool.or_eq_true,
        beq_iff_eq, bne_iff_ne, Option.some.injEq] at found
      obtain ⟨⟨isMark, some⟩, rfl⟩ := found
      refine ⟨mark, _, ?_, isMark, digits_takeWhile some⟩
      rw [List.take_succ_cons, take_takeWhile]

theorem exponentTail?_spells (digits : Digits 10 mantissa)
    (found : exponentTail? rest = some length) :
    Token.scientific.Spells (mantissa ++ rest.take length) := by
  cases rest with
  | nil => contradiction
  | cons mark rest =>
      simp only [exponentTail?, Option.ite_none_right_eq_some, Bool.and_eq_true, Bool.or_eq_true,
        beq_iff_eq, bne_iff_ne, Option.some.injEq] at found
      obtain ⟨⟨isMark, some⟩, rfl⟩ := found
      refine ⟨mantissa, mark, _, ?_, isMark, digits, digits_takeWhile some⟩
      rw [List.take_succ_cons, take_takeWhile]

theorem numberAt_spells (digit : isDigit 10 first = true) :
    (numberAt first rest).1.Spells (first :: rest.take (numberAt first rest).2) := by
  unfold numberAt
  split
  · rename_i length found
    simp only [Option.ite_none_right_eq_some, beq_iff_eq] at found
    obtain ⟨rfl, found⟩ := found
    exact hexTail?_spells found
  · have digits : Digits 10 (first :: rest.takeWhile (isDigit 10)) := by
      refine ⟨List.cons_ne_nil _ _, ?_⟩
      intro c member
      rcases List.mem_cons.mp member with rfl | member
      · exact digit
      · exact takeWhile_all _ _ c member
    dsimp only
    split
    · rename_i length found
      have spelled := exponentTail?_spells digits found
      rwa [List.take_add, take_takeWhile]
    · rwa [take_takeWhile]

theorem take_one {c : Char} (next : (rest.head? == some c) = true) : rest.take 1 = [c] := by
  cases rest with
  | nil => contradiction
  | cons second rest =>
      cases Option.some.inj (beq_iff_eq.mp next)
      rfl

theorem markAt?_spells {symbol : Mark} (found : markAt? first rest = some (symbol, length)) :
    (Token.mark symbol).Spells (first :: rest.take length) := by
  unfold markAt? at found
  dsimp only at found
  repeat' split at found
  all_goals first
    | contradiction
    | (cases found; rfl)
    | (rename_i next
       cases found
       rw [take_one next]
       rfl)

theorem take_closed (closed : (rest.takeWhile (· != '\'')).length < rest.length) :
    rest.take ((rest.takeWhile (· != '\'')).length + 1) = rest.takeWhile (· != '\'') ++ ['\''] := by
  induction rest with
  | nil => contradiction
  | cons c rest ih =>
      by_cases quote : c = '\''
      · simp [quote]
      · simp only [List.takeWhile_cons, bne_iff_ne, ne_eq, quote, not_false_eq_true, if_true,
          List.length_cons, Nat.add_lt_add_iff_right] at closed ⊢
        rw [List.take_succ_cons, ih closed, List.cons_append]

theorem stringTail?_spells (found : stringTail? rest = some length) :
    Token.string.Spells ('\'' :: rest.take length) := by
  simp only [stringTail?, Option.ite_none_right_eq_some, Option.some.injEq] at found
  obtain ⟨closed, rfl⟩ := found
  refine ⟨rest.takeWhile (· != '\''), ?_, ?_⟩
  · rw [take_closed closed, List.cons_append]
  · intro quoted
    have other := takeWhile_all _ _ _ quoted
    contradiction

theorem tokenAt?_spells (found : tokenAt? first rest = some (token, length)) :
    token.Spells (first :: rest.take length) := by
  unfold tokenAt? at found
  split at found
  · rename_i digit
    have spelled : (numberAt first rest).1.Spells (first :: rest.take (numberAt first rest).2) :=
      numberAt_spells digit
    rwa [Option.some.inj found] at spelled
  · split at found
    · rename_i starts
      cases found
      refine ⟨first, _, rfl, starts, ?_⟩
      rw [take_takeWhile]
      exact takeWhile_all _ _
    · split at found
      · rename_i quote
        obtain ⟨tail, closed, same⟩ := Option.map_eq_some_iff.mp found
        cases same
        cases beq_iff_eq.mp quote
        exact stringTail?_spells closed
      · obtain ⟨⟨symbol, tail⟩, marked, same⟩ := Option.map_eq_some_iff.mp found
        cases same
        exact markAt?_spells marked

theorem Scanned.spelled {offset : Nat} {chars : List Char} {found : List Lexeme}
    (scanned : Scanned offset chars found) : Spelled found := by
  induction scanned with
  | done => exact fun lexeme member => absurd member List.not_mem_nil
  | space blank later ih => exact ih
  | token solid cut later ih =>
      intro lexeme member
      rcases List.mem_cons.mp member with rfl | member
      · rw [String.toList_ofList]
        exact tokenAt?_spells cut
      · exact ih lexeme member

/-- A hexadecimal literal of two digits or more keeps its pattern without the last one. -/
theorem hex_spells_dropLast {chars : List Char} (spelled : Token.hex.Spells chars)
    (long : 3 < chars.length) : Token.hex.Spells chars.dropLast := by
  obtain ⟨mark, digits, rfl, isMark, some, all⟩ := spelled
  have rest : digits.dropLast ≠ [] := by
    intro none
    have shorter := congrArg List.length none
    simp only [List.length_dropLast, List.length_cons, List.length_nil] at shorter long
    omega
  refine ⟨mark, digits.dropLast, ?_, isMark, rest, ?_⟩
  · rw [List.dropLast_cons_of_ne_nil (List.cons_ne_nil _ _), List.dropLast_cons_of_ne_nil some]
  · exact fun c member => all c (List.dropLast_subset _ member)

theorem splitsEther_spec {first second : Lexeme} (splits : splitsEther first second = true) :
    first.token = .hex ∧ first.stop = second.start ∧ 3 < first.text.length ∧
      first.text.toList.getLast? = some 'e' ∧ second.token = .name ∧ second.text = "ther" := by
  simpa only [splitsEther, Bool.and_eq_true, beq_iff_eq, decide_eq_true_eq, and_assoc] using splits

theorem handBack_spelled {found : List Lexeme} (spelled : Spelled found) :
    Spelled (handBack found) := by
  induction found using handBack.induct with
  | case1 first second rest splits ih =>
      rw [handBack, if_pos splits]
      obtain ⟨token, _, long, _, _, _⟩ := splitsEther_spec splits
      intro lexeme member
      rcases List.mem_cons.mp member with rfl | member
      · have hex := spelled first (by simp)
        rw [token] at hex
        simp only [token, String.toList_ofList]
        exact hex_spells_dropLast hex (by rwa [String.length_toList])
      rcases List.mem_cons.mp member with rfl | member
      · exact ⟨'e', ['t', 'h', 'e', 'r'], by simp, by decide, List.all_eq_true.mp (by decide)⟩
      · exact ih (fun other later => spelled other (by simp [later])) lexeme member
  | case2 first second rest keeps ih =>
      rw [handBack, if_neg keeps]
      intro lexeme member
      rcases List.mem_cons.mp member with rfl | member
      · exact spelled lexeme (by simp)
      · exact ih (fun other later => spelled other (by simp [later])) lexeme member
  | case3 found single =>
      rwa [handBack.eq_2 found single]

end Lexer

theorem lexemes_spelled {source : String} {tokens : List Lexeme}
    (lexed : lexemes source = .ok tokens) : Spelled tokens := by
  unfold lexemes at lexed
  split at lexed
  · rename_i found scanned
    cases lexed
    exact Lexer.handBack_spelled (Lexer.scan_eq_ok_iff.mp scanned).spelled
  · contradiction

end EtherCalc
