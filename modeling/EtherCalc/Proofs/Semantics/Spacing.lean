import EtherCalc.Proofs.Semantics.Limits
import Mathlib

namespace EtherCalc

/-- The error without the place at which it is reported. -/
def EvalError.unplaced : EvalError → EvalError
  | .parse error => .parse (.unlocated error.fault)
  | error => error

/-- Two sources are alike to an engine: both have an evaluator, and these do the same everywhere, or
both are refused with the same error. -/
inductive Engine.Alike : Except EvalError Evaluator → Except EvalError Evaluator → Prop where
  | evaluators {first second : Evaluator}
      (same : ∀ host context, first.evaluate host context = second.evaluate host context) :
      Alike (.ok first) (.ok second)
  | errors {first second : EvalError} (same : first.unplaced = second.unplaced) :
      Alike (.error first) (.error second)

section

variable {limit : Nat} {source other : String} {tokens found : List Lexeme}

namespace Parser

theorem parseTokens_ownFault {fault : ParseFault} {rest : List Lexeme}
    (failed : parseTokens limit tokens = .error ⟨fault, rest⟩) (ownFault : fault.isTooDeep = false)
    (same : found.map Lexeme.word = tokens.map Lexeme.word) :
    ∃ rest', parseTokens limit found = .error ⟨fault, rest'⟩ := by
  obtain ⟨before, rfl, again, _⟩ := parseTokens_refused failed ownFault
  rw [List.map_append] at same
  obtain ⟨before', rest', rfl, sameBefore, sameRest⟩ := List.map_eq_append_iff.mp same
  have alike : BeginAlike rest rest' := by
    rw [BeginAlike, ← List.head?_map, ← List.head?_map, sameRest]
  exact ⟨rest', again (Nat.le_refl _) sameBefore alike⟩

/-- Lexemes of the same kinds and texts are one expression or have one fault. -/
theorem parseTokens_alike (same : found.map Lexeme.word = tokens.map Lexeme.word) :
    (parseTokens limit found).mapError Refusal.fault =
      (parseTokens limit tokens).mapError Refusal.fault := by
  cases outcome : parseTokens limit tokens with
  | ok expr => rw [parseTokens_raise outcome (Nat.le_refl _) same]
  | error refusal =>
      obtain ⟨fault, rest⟩ := refusal
      cases isTooDeep : fault.isTooDeep with
      | false =>
          obtain ⟨rest', refused⟩ := parseTokens_ownFault outcome isTooDeep same
          rw [refused]
          rfl
      | true =>
          -- Nesting is the one fault that is left, since any other outcome would be that of both.
          obtain ⟨rfl, _⟩ := parseTokens_tooDeep outcome isTooDeep
          cases outcomeToo : parseTokens limit found with
          | ok expr =>
              cases outcome.symm.trans (parseTokens_raise outcomeToo (Nat.le_refl _) same.symm)
          | error refusal =>
              obtain ⟨fault, rest'⟩ := refusal
              cases isTooDeepToo : fault.isTooDeep with
              | true =>
                  obtain ⟨rfl, _⟩ := parseTokens_tooDeep outcomeToo isTooDeepToo
                  rfl
              | false =>
                  obtain ⟨_, refused⟩ := parseTokens_ownFault outcomeToo isTooDeepToo same.symm
                  cases outcome.symm.trans refused
                  contradiction

theorem parse_fault (lexed : lexemes source = .ok tokens) :
    (parse limit source).mapError ParseError.fault =
      (parseTokens limit tokens).mapError Refusal.fault := by
  simp only [parse, lexed]
  cases parseTokens limit tokens <;> rfl

theorem parse_alike (lexed : lexemes source = .ok tokens) (lexedOther : lexemes other = .ok found)
    (same : found.map Lexeme.word = tokens.map Lexeme.word) :
    (parse limit other).mapError ParseError.fault =
      (parse limit source).mapError ParseError.fault := by
  rw [parse_fault lexed, parse_fault lexedOther, parseTokens_alike same]

end Parser

/-- The text of a source is not used after it has been parsed. -/
theorem Engine.alike {config : Config} (same : (Parser.parse config.maxDepth other).mapError
      ParseError.fault = (Parser.parse config.maxDepth source).mapError ParseError.fault) :
    Alike ((ofConfig config).parse other) ((ofConfig config).parse source) := by
  rw [ofConfig_parse, ofConfig_parse]
  cases outcome : Parser.parse config.maxDepth other with
  | error first =>
      cases outcomeToo : Parser.parse config.maxDepth source with
      | ok expr =>
          rw [outcome, outcomeToo] at same
          contradiction
      | error second =>
          rw [outcome, outcomeToo] at same
          have fault : first.fault = second.fault := Except.error.inj same
          exact .errors (congrArg (fun fault => EvalError.parse (.unlocated fault)) fault)
  | ok expr =>
      cases outcomeToo : Parser.parse config.maxDepth source with
      | error error =>
          rw [outcome, outcomeToo] at same
          contradiction
      | ok expr' =>
          rw [outcome, outcomeToo] at same
          obtain rfl : expr = expr' := Except.ok.inj same
          cases compiled : Program.compile config expr with
          | error error =>
              simp only [Except.mapError, Except.bind, compiled]
              exact .errors rfl
          | ok program =>
              simp only [Except.mapError, Except.bind, compiled]
              exact .evaluators fun host context => rfl

/-- A source and its tokens with blanks between any two of them have the same kinds and texts of
tokens, and to every engine they are alike. -/
theorem blanks_only_separate (lexed : lexemes source = .ok tokens)
    (spaced : Lexer.Spaced (tokens.map Lexeme.text) other.toList) :
    (∃ found, lexemes other = .ok found ∧
      found.map Lexeme.word = tokens.map Lexeme.word) ∧
    ∀ config : Config,
      Engine.Alike ((Engine.ofConfig config).parse other) ((Engine.ofConfig config).parse source) := by
  obtain ⟨found, lexedOther, words⟩ := Parser.lexemes_respelled (lexemes_spelled lexed) spaced
  exact ⟨⟨found, lexedOther, words⟩,
    fun config => Engine.alike (Parser.parse_alike lexed lexedOther words)⟩

/-- The unit is found again without the hexadecimal literal that its first letter belonged to. -/
theorem blanks_only_separate_ether :
    let tokens : List Lexeme := [⟨.hex, "0xe", 0⟩, ⟨.name, "ether", 3⟩, ⟨.mark .star, "*", 8⟩,
      ⟨.string, "' '", 9⟩]
    lexemes "0xeether*' '" = .ok tokens ∧
    Lexer.Spaced (tokens.map Lexeme.text) "0xe ether * ' ' ".toList ∧
    (∃ found, lexemes "0xe ether * ' ' " = .ok found ∧
      found.map Lexeme.word = tokens.map Lexeme.word) ∧
    ∀ config : Config, Engine.Alike ((Engine.ofConfig config).parse "0xe ether * ' ' ")
      ((Engine.ofConfig config).parse "0xeether*' '") := by
  intro tokens
  have lexed : lexemes "0xeether*' '" = .ok tokens := by cbv
  have spaced : Lexer.Spaced (tokens.map Lexeme.text) "0xe ether * ' ' ".toList :=
    Lexer.spaced_spread _
  exact ⟨lexed, spaced, blanks_only_separate lexed spaced⟩

end

end EtherCalc
