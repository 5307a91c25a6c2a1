import EtherCalc.Proofs.Language.Boundary
import EtherCalc.Proofs.Lexer.Spelling
import EtherCalc.Proofs.Parser.Plain

namespace EtherCalc.Parser

variable {limit room : Nat} {tokens rest : List Lexeme} {expr : Expr}

theorem expect_eq_ok {wanted : Token} {text : String}
    (found : plain (expect wanted tokens) = .ok (text, rest)) :
    ∃ next, tokens = next :: rest ∧ next.token = wanted ∧ next.text = text := by
  rw [plain_expect] at found
  cases tokens with
  | nil => contradiction
  | cons next tail =>
      dsimp only at found
      split at found
      · rename_i token
        cases found
        exact ⟨next, rfl, token, rfl⟩
      · contradiction

theorem digits_no_mark {chars : List Char} (digits : Digits 10 chars) :
    'e' ∉ chars ∧ 'E' ∉ chars :=
  ⟨fun member => absurd (digits.2 _ member) (by decide),
    fun member => absurd (digits.2 _ member) (by decide)⟩

theorem scientificParts_literal {lexeme : Lexeme} (token : lexeme.token = .scientific)
    (spelled : lexeme.token.Spells lexeme.text.toList) :
    NumberLiteral lexeme (scientificParts lexeme.text) := by
  rw [token] at spelled
  obtain ⟨mantissa, mark, exponent, divided, isMark, digits, _⟩ := spelled
  have divided : lexeme.text.toList =
      (String.ofList mantissa).toList ++ mark :: (String.ofList exponent).toList := by
    simpa only [String.toList_ofList] using divided
  have isFirst := digits_no_mark digits
  rw [← String.toList_ofList (l := mantissa)] at isFirst
  rw [scientificParts_eq divided isMark isFirst]
  exact .scientific token divided isMark isFirst

/-- A literal and the denomination after it, if there is one, are an atom. -/
theorem suffixed_sound {lexeme : Lexeme} {literal : Expr} (isNumber : NumberLiteral lexeme literal)
    (done : suffixed literal tokens = (expr, rest)) :
    ∃ phrase, lexeme :: tokens = phrase ++ rest ∧ Derives .atom phrase expr := by
  unfold suffixed withUnit at done
  split at done
  · cases done
    exact ⟨[lexeme], rfl, .number isNumber⟩
  · rename_i next tail
    split at done
    · rename_i unit found
      cases done
      split at found
      · rename_i named
        exact ⟨[lexeme, next], rfl,
          .amount isNumber named (Denomination.ofWord?_eq_some_iff.mp found)⟩
      · contradiction
    · cases done
      exact ⟨[lexeme], rfl, .number isNumber⟩

theorem ofName_derives {lexeme : Lexeme} (token : lexeme.token = .name) :
    Derives .atom [lexeme] (.ofName lexeme.text) := by
  cases reserved : booleanWord? lexeme.text with
  | none =>
      simp only [Expr.ofName, reserved]
      exact .variable token reserved
  | some value =>
      simp only [Expr.ofName, reserved]
      exact .bool token reserved

mutual

theorem read_sound {limit room : Nat} (category : Category) {tokens rest : List Lexeme}
    {expr : Expr} (spelled : Spelled tokens)
    (done : read limit category room tokens = .ok (expr, rest)) :
    ∃ phrase, tokens = phrase ++ rest ∧ Derives category phrase expr := by
  cases category with
  | chain level =>
      have tighter := Category.rank_ofOperands_lt level
      rw [read_chain, bind_eq_ok] at done
      obtain ⟨⟨first, middle⟩, readFirst, resumed⟩ := done
      have shorter := read_shorter readFirst
      obtain ⟨phrase, rfl, derives⟩ := read_sound (.ofOperands level) spelled readFirst
      obtain ⟨more, rfl, derives⟩ :=
        resume_sound (.chain level) spelled.of_append (.operand derives) resumed
      exact ⟨phrase ++ more, (List.append_assoc _ _ _).symm, derives⟩
  | signed =>
      have tighter : Category.applied.rank < Category.signed.rank := by decide
      cases tokens with
      | nil =>
          rw [read, plain_unary_nil] at done
          contradiction
      | cons next tail =>
          by_cases signed : ∃ build, Signs next.token build
          · obtain ⟨build, sign⟩ := signed
            rw [read, plain_unary_sign sign, bind_eq_ok] at done
            obtain ⟨room, _, done⟩ := done
            obtain ⟨⟨operand, rest⟩, readOperand, same⟩ := map_eq_ok.mp done
            cases same
            obtain ⟨phrase, rfl, derives⟩ := read_sound .signed spelled.tail readOperand
            refine ⟨next :: phrase, rfl, ?_⟩
            rcases sign with ⟨token, rfl⟩ | ⟨token, rfl⟩
            · exact .not token derives
            · exact .negate token derives
          · rw [read, plain_unary_applied (fun bang => signed ⟨_, .inl ⟨bang, rfl⟩⟩)
              (fun minus => signed ⟨_, .inr ⟨minus, rfl⟩⟩)] at done
            obtain ⟨phrase, same, derives⟩ := read_sound .applied spelled done
            exact ⟨phrase, same, .unsigned derives⟩
  | applied =>
      rw [read_applied, bind_eq_ok] at done
      obtain ⟨⟨first, middle⟩, readFirst, resumed⟩ := done
      have shorter := read_shorter readFirst
      obtain ⟨phrase, rfl, derives⟩ := read_sound .atom spelled readFirst
      obtain ⟨more, rfl, derives⟩ := resume_sound .applied spelled.of_append (.bare derives) resumed
      exact ⟨phrase ++ more, (List.append_assoc _ _ _).symm, derives⟩
  | atom =>
      cases tokens with
      | nil =>
          rw [read, plain_atom_nil] at done
          contradiction
      | cons next tail =>
          rw [read, plain_atom] at done
          split at done
          · rename_i token
            exact suffixed_sound (.decimal token) (Except.ok.inj done)
          · rename_i token
            exact suffixed_sound (.hex token) (Except.ok.inj done)
          · rename_i token
            exact suffixed_sound (scientificParts_literal token (spelled next (by simp)))
              (Except.ok.inj done)
          · rename_i token
            cases done
            exact ⟨[next], rfl, .string token⟩
          · rename_i token
            cases done
            exact ⟨[next], rfl, ofName_derives token⟩
          · rename_i opens
            rw [bind_eq_ok] at done
            obtain ⟨room, _, done⟩ := done
            obtain ⟨⟨inner, middle⟩, readInner, done⟩ := bind_eq_ok.mp done
            obtain ⟨⟨_, after⟩, closed, same⟩ := bind_eq_ok.mp done
            cases same
            obtain ⟨phrase, rfl, derives⟩ := read_sound .whole spelled.tail readInner
            obtain ⟨closing, rfl, closes, _⟩ := expect_eq_ok closed
            exact ⟨next :: (phrase ++ [closing]), by simp, .group opens derives closes⟩
          · contradiction
termination_by (tokens.length, category.rank)
decreasing_by
  all_goals first
    | decreasing_tactic
    | (subst_vars; exact Prod.Lex.right _ (by decide))

/-- A loop has a phrase in hand, and each turn makes it longer on the right, as the productions of
chains do. -/
theorem resume_sound {limit room : Nat} (category : Category) {tokens rest before : List Lexeme}
    {left expr : Expr} (spelled : Spelled tokens) (known : Derives category before left)
    (done : resume limit category room left tokens = .ok (expr, rest)) :
    ∃ phrase, tokens = phrase ++ rest ∧ Derives category (before ++ phrase) expr := by
  cases category with
  | chain level =>
      cases tokens with
      | nil =>
          rw [resume, plain_chainRest_nil] at done
          cases done
          exact ⟨[], rfl, by rwa [List.append_nil]⟩
      | cons next tail =>
          cases found : level.operator? next.token with
          | none =>
              rw [resume, plain_chainRest_stop found] at done
              cases done
              exact ⟨[], rfl, by rwa [List.append_nil]⟩
          | some op =>
              rw [resume, plain_chainRest_operator found, bind_eq_ok] at done
              obtain ⟨room, _, done⟩ := done
              obtain ⟨⟨right, middle⟩, readRight, resumed⟩ := bind_eq_ok.mp done
              rw [plain_operand] at readRight
              have shorter := read_shorter readRight
              obtain ⟨rfl, token⟩ := Level.operator?_eq_some_iff.mp found
              obtain ⟨phrase, rfl, derives⟩ := read_sound (.ofOperands op.level) spelled.tail readRight
              obtain ⟨more, rfl, derives⟩ := resume_sound (.chain op.level)
                spelled.tail.of_append (.binary known token derives) resumed
              exact ⟨next :: (phrase ++ more), by simp, by simpa using derives⟩
  | applied =>
      cases tokens with
      | nil =>
          rw [resume, plain_appliedRest_nil] at done
          cases done
          exact ⟨[], rfl, by rwa [List.append_nil]⟩
      | cons next tail =>
          by_cases dot : next.token = .mark .dot
          · rw [resume, plain_appliedRest_member dot, bind_eq_ok] at done
            obtain ⟨room, _, done⟩ := done
            obtain ⟨⟨text, middle⟩, named, resumed⟩ := bind_eq_ok.mp done
            obtain ⟨name, rfl, token, rfl⟩ := expect_eq_ok named
            obtain ⟨more, rfl, derives⟩ := resume_sound .applied
              spelled.tail.tail (.member known dot token) resumed
            exact ⟨next :: name :: more, rfl, by simpa using derives⟩
          by_cases opens : next.token = .mark .openBracket
          · rw [resume, plain_appliedRest_index opens, bind_eq_ok] at done
            obtain ⟨room, _, done⟩ := done
            obtain ⟨⟨position, middle⟩, readPosition, done⟩ := bind_eq_ok.mp done
            obtain ⟨⟨_, after⟩, closed, resumed⟩ := bind_eq_ok.mp done
            have shorter := plain_shorter readPosition
            obtain ⟨phrase, rfl, derives⟩ := read_sound .whole spelled.tail readPosition
            obtain ⟨closing, rfl, closes, _⟩ := expect_eq_ok closed
            obtain ⟨more, rfl, derives⟩ := resume_sound .applied
              spelled.tail.of_append.tail (.index known opens derives closes) resumed
            exact ⟨next :: (phrase ++ closing :: more), by simp, by simpa using derives⟩
          by_cases call : next.token = .mark .openParen
          · rw [resume, plain_appliedRest_call call, bind_eq_ok] at done
            obtain ⟨room, _, done⟩ := done
            obtain ⟨⟨args, middle⟩, readArgs, resumed⟩ := bind_eq_ok.mp done
            have shorter := plain_shorter readArgs
            cases tail with
            | nil =>
                rw [plain_arguments_nil] at readArgs
                contradiction
            | cons second tail =>
                by_cases closes : second.token = .mark .closeParen
                · rw [plain_arguments_close closes] at readArgs
                  cases readArgs
                  obtain ⟨more, rfl, derives⟩ := resume_sound .applied
                    spelled.tail.tail (.call known call closes) resumed
                  exact ⟨next :: second :: more, rfl, by simpa using derives⟩
                · have fewer := Nat.lt_succ_of_lt shorter
                  rw [plain_arguments_some closes] at readArgs
                  obtain ⟨phrase, closing, same, closes, derives⟩ :=
                    someArguments_sound spelled.tail readArgs
                  rw [same] at spelled ⊢
                  obtain ⟨more, rfl, derives⟩ := resume_sound .applied
                    spelled.tail.of_append.tail (.callWith known call derives closes) resumed
                  exact ⟨next :: (phrase ++ closing :: more), by simp, by simpa using derives⟩
          · rw [resume, plain_appliedRest_stop dot opens call] at done
            cases done
            exact ⟨[], rfl, by rwa [List.append_nil]⟩
  | signed | atom =>
      cases done
      exact ⟨[], rfl, by rwa [List.append_nil]⟩
termination_by (tokens.length, 0)

theorem someArguments_sound {limit room : Nat} {tokens rest : List Lexeme} {args : List Expr}
    (spelled : Spelled tokens)
    (done : plain (someArguments limit room tokens) = .ok (args, rest)) :
    ∃ phrase closing, tokens = phrase ++ closing :: rest ∧ closing.token = .mark .closeParen ∧
      DerivesArguments phrase args := by
  rw [plain_someArguments, bind_eq_ok] at done
  obtain ⟨⟨first, middle⟩, readFirst, done⟩ := done
  have shorter := plain_shorter readFirst
  obtain ⟨phrase, rfl, derives⟩ := read_sound .whole spelled readFirst
  cases middle with
  | nil => contradiction
  | cons next tail =>
      dsimp only at done
      split at done
      · rename_i comma
        obtain ⟨⟨args, rest⟩, readMore, same⟩ := map_eq_ok.mp done
        cases same
        obtain ⟨later, closing, rfl, closes, derivesMore⟩ :=
          someArguments_sound spelled.of_append.tail readMore
        exact ⟨phrase ++ next :: later, closing, by simp, closes, .more derives comma derivesMore⟩
      · rename_i closes
        cases done
        exact ⟨phrase, next, rfl, closes, .one derives⟩
      · contradiction
termination_by (tokens.length, Category.whole.rank + 1)

end

end EtherCalc.Parser
