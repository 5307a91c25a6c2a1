import EtherCalc.Proofs.Parser.ViablePrefix
import EtherCalc.Proofs.Semantics.Compilation
import Mathlib

namespace EtherCalc

namespace Parser

/-- The source is refused because it is nested too deeply. -/
def TooDeep (limit : Nat) (source : String) : Prop :=
  ∃ location, parse limit source = .error ⟨.tooDeep limit, location⟩

section

variable {limit larger : Nat} {source : String} {tokens : List Lexeme} {error : ParseError}

/-- A text that is no list of lexemes is not refused for its nesting. -/
theorem tooDeep_lexes (tooDeep : TooDeep limit source) : ∃ tokens, lexemes source = .ok tokens := by
  obtain ⟨location, failed⟩ := tooDeep
  unfold parse lexemes at failed
  unfold lexemes
  cases scanned : Lexer.scan 0 source.toList with
  | ok found => exact ⟨_, rfl⟩
  | error stop =>
      rw [scanned] at failed
      cases failed

/-- No limit but the one in force is ever named as exceeded. -/
theorem tooDeep_of_fault (lexed : lexemes source = .ok tokens)
    (failed : parse limit source = .error error) (isTooDeep : error.fault.isTooDeep = true) :
    TooDeep limit source := by
  obtain ⟨fault, location⟩ := error
  obtain ⟨rest, refused, _⟩ := (parse_eq_error lexed).mp failed
  obtain ⟨rfl, _⟩ := parseTokens_tooDeep refused isTooDeep
  exact ⟨location, failed⟩

theorem tooDeep_short (lexed : lexemes source = .ok tokens) (tooDeep : TooDeep limit source) :
    limit < tokens.length := by
  obtain ⟨location, failed⟩ := tooDeep
  obtain ⟨rest, refused, _⟩ := (parse_eq_error lexed).mp failed
  exact (parseTokens_tooDeep refused rfl).2

theorem parse_raise (enough : ¬ TooDeep limit source) (le : limit ≤ larger) :
    parse larger source = parse limit source := by
  cases lexed : lexemes source with
  | error error => simp only [parse, lexed]
  | ok tokens =>
      cases outcome : parseTokens limit tokens with
      | ok expr => simp only [parse, lexed, outcome, parseTokens_raise outcome le rfl]
      | error refusal =>
          obtain ⟨fault, rest⟩ := refusal
          have failed : parse limit source =
              .error (.atOffset source (Refusal.offset source ⟨fault, rest⟩) fault) := by
            simp only [parse, lexed, outcome]
          have ownFault : fault.isTooDeep = false := by
            cases isTooDeep : fault.isTooDeep with
            | false => rfl
            | true => exact absurd (tooDeep_of_fault lexed failed isTooDeep) enough
          obtain ⟨before, rfl, again, _⟩ := parseTokens_refused outcome ownFault
          rw [failed]
          simp only [parse, lexed, again le rfl rfl]

theorem TooDeep.lower (tooDeep : TooDeep larger source) (le : limit ≤ larger) :
    TooDeep limit source := by
  by_contra enough
  -- Else the smaller limit would give the same error, which names the larger one.
  obtain ⟨tokens, lexed⟩ := tooDeep_lexes tooDeep
  obtain ⟨location, failed⟩ := tooDeep
  rw [parse_raise enough le] at failed
  exact enough (tooDeep_of_fault lexed failed rfl)

theorem exists_sufficient (source : String) : ∃ limit, ¬ TooDeep limit source := by
  cases lexed : lexemes source with
  | ok tokens =>
      exact ⟨tokens.length, fun tooDeep => Nat.lt_irrefl _ (tooDeep_short lexed tooDeep)⟩
  | error error =>
      refine ⟨0, fun tooDeep => ?_⟩
      obtain ⟨tokens, lexedToo⟩ := tooDeep_lexes tooDeep
      cases lexed.symm.trans lexedToo

theorem least_sufficient (source : String) :
    ∃! least, ∀ limit, TooDeep limit source ↔ limit < least := by
  classical
  have some := exists_sufficient source
  refine ⟨Nat.find some, fun limit => ⟨fun tooDeep => ?_, fun less => ?_⟩, fun other isLeast => ?_⟩
  · exact Nat.lt_of_not_le fun le => Nat.find_spec some (tooDeep.lower le)
  · exact not_not.mp (Nat.find_min some less)
  · refine Nat.le_antisymm (Nat.le_of_not_lt fun less => ?_) (Nat.find_min' some fun tooDeep => ?_)
    · exact Nat.find_spec some ((isLeast _).mpr less)
    · exact Nat.lt_irrefl _ ((isLeast _).mp tooDeep)

end

end Parser

/-- The other configuration allows at least as much and treats missing names alike. -/
structure Config.Within (config larger : Config) : Prop where
  unbound : larger.unbound = config.unbound
  maxExponent : config.maxExponent ≤ larger.maxExponent
  maxDepth : config.maxDepth ≤ larger.maxDepth

section

variable {config larger : Config} {mantissa exponent source : String} {evaluator : Evaluator}

theorem Numeral.scientific_raise {limit larger : Nat} {value : Int}
    (valid : scientific limit mantissa exponent = .ok value) (le : limit ≤ larger) :
    scientific larger mantissa exponent = .ok value := by
  unfold scientific at valid ⊢
  split at valid
  · contradiction
  · contradiction
  · rename_i factor power factorRead powerRead
    split at valid
    · rename_i fits
      have fitsLarger : 0 ≤ power ∧ power ≤ (larger : Int) := by omega
      rwa [if_pos fitsLarger]
    · contradiction

namespace Program

mutual

theorem ofExpr_raise (within : config.Within larger) : (expr : Expr) → ∀ {program},
    ofExpr config expr = .ok program → ofExpr larger expr = .ok program
  | .number _, _, compiled | .string _, _, compiled | .bool _, _, compiled => compiled
  | .scientific mantissa exponent, program, compiled => by
      obtain ⟨value, valid, same⟩ := bind_eq_ok.mp compiled
      exact bind_eq_ok.mpr ⟨value, Numeral.scientific_raise valid within.maxExponent, same⟩
  | .variable name, program, compiled => by
      rw [ofExpr] at compiled ⊢
      rwa [within.unbound]
  | .amount inner _, program, compiled | .negate inner, program, compiled
  | .not inner, program, compiled => by
      obtain ⟨inner', compiledInner, same⟩ := bind_eq_ok.mp compiled
      exact bind_eq_ok.mpr ⟨inner', ofExpr_raise within inner compiledInner, same⟩
  | .member target name, program, compiled => by
      obtain ⟨target', compiledTarget, same⟩ := bind_eq_ok.mp compiled
      rw [← within.unbound] at same
      exact bind_eq_ok.mpr ⟨target', ofExpr_raise within target compiledTarget, same⟩
  | .binary _ left right, program, compiled | .index left right, program, compiled => by
      obtain ⟨left', compiledLeft, compiledRest⟩ := bind_eq_ok.mp compiled
      obtain ⟨right', compiledRight, same⟩ := bind_eq_ok.mp compiledRest
      exact bind_eq_ok.mpr ⟨left', ofExpr_raise within left compiledLeft,
        bind_eq_ok.mpr ⟨right', ofExpr_raise within right compiledRight, same⟩⟩
  | .call callee args, program, compiled => by
      obtain ⟨callee', compiledCallee, compiledRest⟩ := bind_eq_ok.mp compiled
      obtain ⟨args', compiledArgs, same⟩ := bind_eq_ok.mp compiledRest
      exact bind_eq_ok.mpr ⟨callee', ofExpr_raise within callee compiledCallee,
        bind_eq_ok.mpr ⟨args', ofExprs_raise within args compiledArgs, same⟩⟩

theorem ofExprs_raise (within : config.Within larger) : (exprs : List Expr) → ∀ {programs},
    ofExprs config exprs = .ok programs → ofExprs larger exprs = .ok programs
  | [], _, compiled => compiled
  | expr :: rest, programs, compiled => by
      obtain ⟨program, compiledFirst, compiledRest⟩ := bind_eq_ok.mp compiled
      obtain ⟨others, compiledOthers, same⟩ := bind_eq_ok.mp compiledRest
      exact bind_eq_ok.mpr ⟨program, ofExpr_raise within expr compiledFirst,
        bind_eq_ok.mpr ⟨others, ofExprs_raise within rest compiledOthers, same⟩⟩

end

end Program

theorem Program.compile_eq_ok {expr : Expr} {program : Program} :
    compile config expr = .ok program ↔
      expr.height ≤ config.maxDepth ∧ ofExpr config expr = .ok program := by
  rw [compile, Expr.checkDepth_eq]
  by_cases low : expr.height ≤ config.maxDepth
  · simp [low]
  · simp [low]

theorem Engine.ofConfig_parse : (ofConfig config).parse source =
    ((Parser.parse config.maxDepth source).mapError .parse).bind fun expr =>
      (Program.compile config expr).map fun program => ⟨source, config, program⟩ := by
  have feed : Grammar.builtin.feed config source =
      (Parser.parse config.maxDepth source).map fun expr => [.leaf expr] := rfl
  cases parsed : Parser.parse config.maxDepth source with
  | error error =>
      rw [parsed] at feed
      rw [parse, ofConfig, feed]
      rfl
  | ok expr =>
      rw [parsed] at feed
      by_cases low : expr.height ≤ config.maxDepth
      · exact parse_of_feed feed low
      · have found : Nested.leaves [.leaf expr] = [expr] := by
          simp [Nested.leaves, Nested.leavesAfter]
        simp only [parse, ofConfig, feed, Except.map, found, checkDepths, Expr.checkDepth_eq,
          if_neg low, Except.mapError, Except.bind, Program.compile]

theorem Engine.ofConfig_parse_eq_ok : (ofConfig config).parse source = .ok evaluator ↔
    ∃ expr program, Parser.parse config.maxDepth source = .ok expr ∧
      Program.compile config expr = .ok program ∧ ⟨source, config, program⟩ = evaluator := by
  simp only [ofConfig_parse, bind_eq_ok, map_eq_ok, mapError_eq_ok, exists_and_left]

theorem Engine.evaluate_parsed {expr : Expr} {host : Host} {context : Context}
    (parsed : Parser.parse config.maxDepth source = .ok expr)
    (low : expr.height ≤ config.maxDepth) :
    (ofConfig config).evaluate host context source =
      match Program.ofExpr config expr with
      | .error error => ⟨.error error, [], context.nextId⟩
      | .ok program => program.run host context context.nextId := by
  rw [evaluate, ofConfig_parse, parsed]
  simp only [Except.mapError, Except.bind, Program.compile_eq_ofExpr low]
  cases Program.ofExpr config expr <;> rfl

theorem Engine.parse_raise (within : config.Within larger)
    (done : (ofConfig config).parse source = .ok evaluator) :
    (ofConfig larger).parse source = .ok ⟨source, larger, evaluator.program⟩ := by
  obtain ⟨expr, program, parsed, compiled, rfl⟩ := ofConfig_parse_eq_ok.mp done
  obtain ⟨low, compiled⟩ := Program.compile_eq_ok.mp compiled
  have enough : ¬ Parser.TooDeep config.maxDepth source := by
    rintro ⟨location, failed⟩
    cases parsed.symm.trans failed
  have parsedToo : Parser.parse larger.maxDepth source = .ok expr := by
    rw [Parser.parse_raise enough within.maxDepth, parsed]
  have compiledToo : Program.compile larger expr = .ok program :=
    Program.compile_eq_ok.mpr
      ⟨Nat.le_trans low within.maxDepth, Program.ofExpr_raise within expr compiled⟩
  exact ofConfig_parse_eq_ok.mpr ⟨expr, program, parsedToo, compiledToo, rfl⟩

/-- A larger limit gives a source the outcome that a sufficient one gives it, the least sufficient
one is where refusals for nesting end, and larger limits of an engine change no evaluator. -/
theorem limits_only_refuse (source : String) :
    (∀ limit larger, limit ≤ larger → ¬ Parser.TooDeep limit source →
      Parser.parse larger source = Parser.parse limit source) ∧
    (∃! least, ∀ limit, Parser.TooDeep limit source ↔ limit < least) ∧
    (∀ config larger : Config, config.Within larger → ∀ evaluator,
      (Engine.ofConfig config).parse source = .ok evaluator →
        ∃ other, (Engine.ofConfig larger).parse source = .ok other ∧
          ∀ host context, other.evaluate host context = evaluator.evaluate host context) := by
  refine ⟨?_, Parser.least_sufficient source, ?_⟩
  · intro limit larger le enough
    exact Parser.parse_raise enough le
  · intro config larger within evaluator done
    exact ⟨_, Engine.parse_raise within done, fun host context => rfl⟩

/-- Two pairs of parentheses need a limit of two. -/
theorem limits_only_refuse_groups :
    let config : Config := ⟨.error, 3, 2⟩
    let larger : Config := ⟨.error, 10, 5⟩
    Parser.TooDeep 1 "((2e3))" ∧ ¬ Parser.TooDeep 2 "((2e3))" ∧
      Parser.parse 5 "((2e3))" = Parser.parse 2 "((2e3))" ∧ config.Within larger ∧
      ∃ evaluator other, (Engine.ofConfig config).parse "((2e3))" = .ok evaluator ∧
        (Engine.ofConfig larger).parse "((2e3))" = .ok other ∧
          ∀ host context, other.evaluate host context = evaluator.evaluate host context := by
  intro config larger
  have parsed : Parser.parse 2 "((2e3))" = .ok (.scientific "2" "3") := by cbv
  have tooDeep : Parser.TooDeep 1 "((2e3))" := by
    refine ⟨some ⟨2, 1, 3⟩, ?_⟩
    cbv
  have enough : ¬ Parser.TooDeep 2 "((2e3))" := by
    rintro ⟨location, failed⟩
    cases parsed.symm.trans failed
  have within : config.Within larger := ⟨rfl, by decide, by decide⟩
  have done : (Engine.ofConfig config).parse "((2e3))" =
      .ok ⟨"((2e3))", config, .literal (.big 2000)⟩ := by cbv
  obtain ⟨raise, _, engines⟩ := limits_only_refuse "((2e3))"
  obtain ⟨other, raised, same⟩ := engines config larger within _ done
  exact ⟨tooDeep, enough, raise 2 5 (by decide) enough, within, _, other, done, raised, same⟩

end

end EtherCalc
