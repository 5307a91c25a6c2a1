import EtherCalc.Proofs.Parser.Completeness
import EtherCalc.Proofs.Parser.Soundness
import Mathlib

namespace EtherCalc.Parser

variable {limit : Nat} {source : String} {tokens : List Lexeme} {expr : Expr}

theorem parseTokens_eq_ok : parseTokens limit tokens = .ok expr ↔
    read limit .whole limit tokens = .ok (expr, []) := by
  rw [parseTokens, read]
  rcases chain limit .disjunction limit tokens with refusal | ⟨first, _ | ⟨next, rest⟩, shorter⟩ <;>
    simp

theorem parseTokens_sound (spelled : Spelled tokens)
    (done : parseTokens limit tokens = .ok expr) : Derives .whole tokens expr := by
  obtain ⟨phrase, rfl, derives⟩ := read_sound .whole spelled (parseTokens_eq_ok.mp done)
  rwa [List.append_nil]

theorem parseTokens_complete (derives : Derives .whole tokens expr)
    (enough : tokens.length ≤ limit) : parseTokens limit tokens = .ok expr := by
  have stops : ∀ rank, Stops rank [] := fun _ => trivial
  have done := read_of_stops (stops _) (read_complete limit derives enough (stops _))
  rw [List.append_nil] at done
  exact parseTokens_eq_ok.mpr done

theorem parse_eq_ok : parse limit source = .ok expr ↔
    ∃ tokens, lexemes source = .ok tokens ∧ parseTokens limit tokens = .ok expr := by
  rw [parse]
  cases lexemes source with
  | error reason => simp
  | ok tokens =>
      simp only [Except.ok.injEq, exists_eq_left']
      cases parseTokens limit tokens <;> simp

theorem parse_sound (done : parse limit source = .ok expr) :
    ∃ tokens, lexemes source = .ok tokens ∧ Derives .whole tokens expr := by
  obtain ⟨tokens, lexed, done⟩ := parse_eq_ok.mp done
  exact ⟨tokens, lexed, parseTokens_sound (lexemes_spelled lexed) done⟩

theorem parse_complete (lexed : lexemes source = .ok tokens) (derives : Derives .whole tokens expr)
    (enough : tokens.length ≤ limit) : parse limit source = .ok expr :=
  parse_eq_ok.mpr ⟨tokens, lexed, parseTokens_complete derives enough⟩

theorem derives_unique {other : Expr} (derives : Derives .whole tokens expr)
    (derivesOther : Derives .whole tokens other) : expr = other := by
  have done := parseTokens_complete derives (Nat.le_refl _)
  have doneOther := parseTokens_complete derivesOther (Nat.le_refl _)
  exact Except.ok.inj (done.symm.trans doneOther)

/-- The parser decides the grammar and builds its trees, and a list of lexemes has one tree at
most. -/
theorem parse_iff_derives :
    (∀ (source : String) (tokens : List Lexeme) (limit : Nat), lexemes source = .ok tokens →
      tokens.length ≤ limit →
        ∀ expr, parse limit source = .ok expr ↔ Derives .whole tokens expr) ∧
    (∀ (tokens : List Lexeme) (expr other : Expr),
      Derives .whole tokens expr → Derives .whole tokens other → expr = other) := by
  constructor
  · intro source tokens limit lexed enough expr
    constructor
    · intro done
      obtain ⟨found, lexedAgain, derives⟩ := parse_sound done
      cases lexed.symm.trans lexedAgain
      exact derives
    · intro derives
      exact parse_complete lexed derives enough
  · intro tokens expr other derives derivesOther
    exact derives_unique derives derivesOther

/-- Operators of one level are applied from the left, and a unit belongs to its literal. -/
theorem parse_iff_derives_difference :
    let tokens : List Lexeme :=
      [⟨.decimal, "8", 0⟩, ⟨.mark .minus, "-", 2⟩, ⟨.decimal, "2", 4⟩, ⟨.mark .minus, "-", 6⟩,
        ⟨.decimal, "1", 8⟩, ⟨.name, "ether", 10⟩]
    let difference : Expr := .binary .sub (.binary .sub (.number "8") (.number "2"))
      (.amount (.number "1") .ether)
    lexemes "8 - 2 - 1 ether" = .ok tokens ∧ tokens.length ≤ 6 ∧
      Derives .whole tokens difference ∧ ∀ other, Derives .whole tokens other → other = difference := by
  intro tokens difference
  have lexed : lexemes "8 - 2 - 1 ether" = .ok tokens := by cbv
  have enough : tokens.length ≤ 6 := by decide
  have derives : Derives .whole tokens difference :=
    (parse_iff_derives.1 "8 - 2 - 1 ether" tokens 6 lexed enough difference).mp
      (by cbv)
  exact ⟨lexed, enough, derives, fun other also => parse_iff_derives.2 tokens _ _ also derives⟩

end EtherCalc.Parser
