import EtherCalc.Proofs.Parser.Balance
import EtherCalc.Proofs.Parser.TreeHeight
import Mathlib

namespace EtherCalc

namespace Parser

namespace Walk

section

variable {limit depth count calls : Nat} {tokens rest : List Lexeme} {cursor : Cursor}

theorem parseTokens_map : (parseTokens limit tokens).map (fun expr => (expr, ([] : List Lexeme))) =
    (read limit .whole limit tokens).bind fun read =>
      match read.2 with
      | [] => .ok (read.1, [])
      | next :: rest => .error ⟨.trailing next.token, next :: rest⟩ := by
  rw [parseTokens, read]
  rcases Parser.chain limit .disjunction limit tokens with
    refusal | ⟨first, _ | ⟨next, rest⟩, shorter⟩ <;> rfl

theorem whole_reaches (tokens : List Lexeme) (enough : 13 * (limit + 1) ≤ calls) :
    Reaches limit tokens 0 (whole limit tokens calls) ⟨0, 0, []⟩
      ((parseTokens limit tokens).map fun expr => (expr, [])) := by
  have stands := Cursor.stands_at limit 0 (Nat.zero_le tokens.length)
  have enough : Enough limit tokens Category.whole.calls calls := by
    have few : Category.whole.calls = 13 := rfl
    rw [Enough, few]
    omega
  rw [parseTokens_map, whole]
  refine (phrase_follows calls .whole stands (Nat.zero_add _) enough).andThen ?_
  intro expr rest after done stands
  refine reaches_peek stands ?_
  cases rest with
  | nil => exact reaches_pure stands
  | cons next rest => exact reaches_remaining stands reaches_refuse

theorem parse?_eq (source : String) (enough : 13 * (limit + 1) ≤ calls) :
    parse? calls limit source = some (parse limit source) := by
  rw [parse?, parse]
  cases lexemes source with
  | error error => rfl
  | ok tokens =>
      have reaches := whole_reaches tokens enough
      dsimp only
      cases outcome : parseTokens limit tokens with
      | error refusal =>
          rw [outcome] at reaches
          have refused : (whole limit tokens calls).outcome? ⟨0, 0, []⟩ =
            some (.error (.refused refusal)) := reaches
          rw [refused]
      | ok expr =>
          rw [outcome] at reaches
          obtain ⟨after, done, _⟩ := reaches
          rw [done]

/-- The lexemes begin with so many opening parentheses and a number. -/
inductive Opened : Nat → List Lexeme → Prop
  | number {next : Lexeme} {rest : List Lexeme} (token : next.token = .decimal) :
      Opened 0 (next :: rest)
  | group {next : Lexeme} {rest : List Lexeme} {count : Nat}
      (token : next.token = .mark .openParen) (inside : Opened count rest) :
      Opened (count + 1) (next :: rest)

theorem Opened.unsigned (opened : Opened count rest) {token : Token}
    (first : rest.head?.map Lexeme.token = some token) :
    token ≠ .mark .bang ∧ token ≠ .mark .minus := by
  cases opened with
  | number isNumber | group isNumber inside =>
      cases first
      rw [isNumber]
      decide

theorem bind_none {α β : Type} {first : Walk α} {next : α → Walk β}
    (none : first.outcome? cursor = none) : (first >>= next).outcome? cursor = Option.none := by
  rw [outcome?_bind, none]

/-- A group inside an atom takes thirteen calls, so with one call too few there is none left for the
atom of the innermost. -/
theorem phrase_usedUp {cursor : Cursor} {depth count calls : Nat} {rest : List Lexeme}
    (category : Category) (opened : Opened count rest)
    (stands : cursor.Stands limit tokens depth rest) (room : depth + count ≤ limit)
    (few : calls + 1 = 13 * count + category.calls) :
    (phrase limit tokens calls category).outcome? cursor = none := by
  cases category with
  | chain level =>
      have some : 0 < (Category.ofOperands level).calls := by cases level <;> decide
      rw [Category.calls_chain] at few
      obtain ⟨calls, rfl⟩ : ∃ fewer, calls = fewer + 2 := ⟨calls - 2, by omega⟩
      rw [phrase, chain, operand_succ]
      exact bind_none (phrase_usedUp (.ofOperands level) opened stands room (by omega))
  | signed =>
      have few : calls = 13 * count + Category.applied.calls := Nat.succ.inj few
      obtain ⟨calls, rfl⟩ : ∃ fewer, calls = fewer + 1 := ⟨_, few⟩
      rw [phrase, unary, outcome?_bind, outcome?_peek, stands.next]
      dsimp only
      split
      · rename_i first
        exact absurd rfl (opened.unsigned first).1
      · rename_i first
        exact absurd rfl (opened.unsigned first).2
      · exact phrase_usedUp .applied opened stands room few
  | applied =>
      have few : calls = 13 * count + Category.atom.calls := Nat.succ.inj few
      obtain ⟨calls, rfl⟩ : ∃ fewer, calls = fewer + 1 := ⟨_, few⟩
      rw [phrase, applied]
      exact bind_none (phrase_usedUp .atom opened stands room few)
  | atom =>
      have few : calls = 13 * count := Nat.succ.inj few
      cases opened with
      | number token =>
          subst few
          rw [phrase, atom]
          rfl
      | @group next rest count token inside =>
          obtain ⟨calls, rfl⟩ : ∃ fewer, calls = fewer + 1 := ⟨_, few⟩
          have below : ¬ limit < cursor.depth + 1 := by
            rw [stands.depth]
            omega
          have deeper := stands.skip.count (cursor.depth + 1) (by omega)
          rw [phrase, atom, outcome?_bind, outcome?_remaining]
          dsimp only
          rw [outcome?_bind, outcome?_advance stands]
          simp only [token]
          rw [outcome?_bind, outcome?_descend, if_neg below]
          refine bind_none (phrase_usedUp .whole inside deeper ?_ few)
          rw [stands.depth]
          omega
termination_by calls
decreasing_by
  all_goals omega

theorem opened_tower {words : List String} (reads : Reads tokens (tower count ++ words)) :
    Opened count tokens := by
  induction count generalizing tokens words with
  | zero =>
      obtain ⟨one, rest, rfl, isDecimal, _⟩ := reads.cons .decimal one_spells
      exact .number isDecimal
  | succ count ih =>
      simp only [tower, List.cons_append, List.append_assoc] at reads
      obtain ⟨opening, rest, rfl, opens, _, reads⟩ := reads.cons (.mark .openParen) rfl
      exact .group opens (ih reads)

theorem parse?_tower_none (limit : Nat) :
    parse? (13 * limit + 12) limit (String.ofList (Lexer.spread (tower limit))) = none := by
  have spaced : Lexer.Spaced (tower limit)
      (String.ofList (Lexer.spread (tower limit))).toList := by
    rw [String.toList_ofList]
    exact Lexer.spaced_spread _
  obtain ⟨tokens, lexed, texts⟩ := lexemes_of_spaced spaced (readable_tower limit)
  have reads : Reads tokens (tower limit ++ []) := by
    rw [List.append_nil]
    exact ⟨texts, lexemes_spelled lexed⟩
  have stands := Cursor.stands_at limit 0 (Nat.zero_le tokens.length)
  have none : (whole limit tokens (13 * limit + 12)).outcome? ⟨0, 0, []⟩ = none :=
    bind_none (phrase_usedUp .whole (opened_tower reads) stands (Nat.zero_add _).le rfl)
  rw [parse?, lexed]
  dsimp only
  rw [none]

/-- Thirteen nested calls for each nesting step that the limit allows, and thirteen more, suffice
for every source; one call less does not suffice for every source. -/
theorem nested_calls_bounded :
    (∀ limit source,
      parse? (13 * (limit + 1)) limit source = some (Parser.parse limit source)) ∧
    ∀ limit, ∃ source expr, Parser.parse limit source = .ok expr ∧
      parse? (13 * limit + 12) limit source = none := by
  refine ⟨fun limit source => parse?_eq source le_rfl, fun limit => ?_⟩
  obtain ⟨expr, done, _⟩ := parse_tower limit
  exact ⟨_, expr, done, parse?_tower_none limit⟩

end

end Walk

end Parser

end EtherCalc
