import EtherCalc.Host.Standard
import EtherCalc.Proofs.Numeral
import EtherCalc.Proofs.Parser.RoundTrip
import EtherCalc.Proofs.Semantics.Faults
import EtherCalc.Proofs.Semantics.Limits

namespace EtherCalc

/-- The texts that the parser makes of a number are read as integers. -/
def Lexeme.Reads (lexeme : Lexeme) : Prop :=
  (lexeme.token = .decimal ∨ lexeme.token = .hex →
    ∃ value : Nat, Numeral.read lexeme.text = .ok (value : Int)) ∧
  (lexeme.token = .scientific → ∃ mantissa exponent,
    Parser.scientificParts lexeme.text = .scientific mantissa exponent ∧
    ∃ factor power : Nat, Numeral.read mantissa = .ok (factor : Int) ∧
      Numeral.read exponent = .ok (power : Int))

section

variable {config : Config} {source : String} {fault error : EvalError} {tokens : List Lexeme}

theorem lexemes_read (lexed : lexemes source = .ok tokens) : ∀ lexeme ∈ tokens, lexeme.Reads := by
  intro lexeme member
  have spelled := lexemes_spelled lexed lexeme member
  constructor
  · rintro (token | token) <;> rw [token] at spelled
    · exact Numeral.read_decimal spelled
    · exact Numeral.read_hex spelled
  · intro token
    obtain ⟨⟨mantissa, exponent⟩, _⟩ :=
      (Parser.scientificParts_literal token spelled).wellFormed spelled
    obtain ⟨factor, readFactor⟩ := Numeral.read_decimal mantissa
    obtain ⟨power, readPower⟩ := Numeral.read_decimal exponent
    exact ⟨_, _, rfl, factor, power, readFactor, readPower⟩

namespace Expr

mutual

theorem leaves_wellFormed : (expr : Expr) → expr.WellFormed → ∀ leaf ∈ expr.leaves, leaf.WellFormed
  | .number _, wellFormed | .scientific _ _, wellFormed | .string _, wellFormed
  | .bool _, wellFormed | .variable _, wellFormed => by
      intro leaf member
      cases List.mem_singleton.mp member
      exact wellFormed
  | .amount inner _, ⟨_, wellFormed⟩ | .negate inner, wellFormed | .not inner, wellFormed
  | .member inner _, ⟨wellFormed, _⟩ => leaves_wellFormed inner wellFormed
  | .binary _ left right, ⟨wellLeft, wellRight⟩ | .index left right, ⟨wellLeft, wellRight⟩ =>
      List.forall_mem_append.mpr ⟨leaves_wellFormed left wellLeft, leaves_wellFormed right wellRight⟩
  | .call callee args, ⟨wellCallee, wellArgs⟩ =>
      List.forall_mem_append.mpr
        ⟨leaves_wellFormed callee wellCallee, leavesAll_wellFormed args wellArgs⟩

theorem leavesAll_wellFormed : (exprs : List Expr) → WellFormedAll exprs →
    ∀ leaf ∈ leavesAll exprs, leaf.WellFormed
  | [], _ => nofun
  | expr :: rest, ⟨wellFirst, wellRest⟩ =>
      List.forall_mem_append.mpr
        ⟨leaves_wellFormed expr wellFirst, leavesAll_wellFormed rest wellRest⟩

end

theorem literalFault?_of_wellFormed {leaf : Expr} (wellFormed : leaf.WellFormed)
    (isFault : leaf.literalFault? config = some fault) :
    ∃ power : Nat, fault = .exponentOverflow power config.maxExponent ∧ config.maxExponent < power := by
  cases leaf with
  | number text =>
      have failed := fault?_eq_some_iff.mp isFault
      rcases wellFormed with spelled | spelled
      · obtain ⟨value, done⟩ := Numeral.read_decimal spelled
        cases done.symm.trans failed
      · obtain ⟨value, done⟩ := Numeral.read_hex spelled
        cases done.symm.trans failed
  | scientific mantissa exponent =>
      exact Numeral.scientific_digits wellFormed.1 wellFormed.2 (fault?_eq_some_iff.mp isFault)
  | _ => contradiction

end Expr

theorem Program.ofExpr_wellFormed {expr : Expr} (wellFormed : expr.WellFormed)
    (failed : ofExpr config expr = .error fault) :
    ∃ power : Nat, fault = .exponentOverflow power config.maxExponent ∧ config.maxExponent < power := by
  rw [← fault?_eq_some_iff, fault?_ofExpr] at failed
  obtain ⟨leaf, member, isFault⟩ := List.exists_of_findSome?_eq_some failed
  exact Expr.literalFault?_of_wellFormed (expr.leaves_wellFormed wellFormed leaf member) isFault

/-- A source of the language is refused for its syntax or nesting, or for an exponent. -/
theorem Engine.ofConfig_parse_error (failed : (ofConfig config).parse source = .error error) :
    (∃ fault, error = .parse fault) ∨
      ∃ power : Nat, error = .exponentOverflow power config.maxExponent ∧ config.maxExponent < power := by
  rw [ofConfig_parse] at failed
  cases parsed : Parser.parse config.maxDepth source with
  | error fault =>
      rw [parsed] at failed
      cases failed
      exact .inl ⟨fault, rfl⟩
  | ok expr =>
      rw [parsed] at failed
      cases compiled : Program.compile config expr with
      | ok program =>
          rw [Except.mapError, Except.bind, compiled] at failed
          contradiction
      | error fault =>
          rw [Except.mapError, Except.bind, compiled] at failed
          cases failed
          by_cases low : expr.height ≤ config.maxDepth
          · rw [Program.compile_eq_ofExpr low] at compiled
            exact .inr (Program.ofExpr_wellFormed (Parser.parse_wellFormed parsed) compiled)
          · rw [Program.compile, Expr.checkDepth_eq, if_neg low] at compiled
            cases compiled
            exact .inl ⟨_, rfl⟩

/-- Whatever the grammar is, an evaluator runs the program of one expression. -/
theorem Engine.parse_program {engine : Engine} {evaluator : Evaluator}
    (done : engine.parse source = .ok evaluator) :
    evaluator.config = engine.config ∧
      ∃ expr, Program.compile engine.config expr = .ok evaluator.program := by
  unfold parse at done
  split at done
  · contradiction
  · dsimp only at done
    split at done
    · contradiction
    · split at done
      · contradiction
      · rename_i expr _
        split at done
        · contradiction
        · rename_i program compiled
          cases done
          exact ⟨rfl, expr, compiled⟩

end

section

variable {host : Host} {config : Config} {context : Context}

/-- A name that has no value may be reported where the configuration wants it. -/
def Config.Reports (config : Config) (context : Context) (name : String) : Prop :=
  config.unbound = .error ∧ context.get? name = none

mutual

theorem Evaluates.failsOnly (keeps : host.KeepsPhase) {expr : Expr} {id : Nat}
    {outcome : Outcome Value}
    (evaluates : Evaluates host config context expr id outcome) :
    FailsOnly (·.OfRun (config.Reports context)) outcome.result := by
  match evaluates with
  | .number _ | .scientific _ | .string | .bool | .reserved _ | .bound _ _ | .undefined _ _ _ =>
      exact failsOnly_ok
  | .unbound _ absent policy => exact failsOnly_error ⟨policy, absent⟩
  | .amount _ | .negate _ => exact Value.toInteger_failsOnly.map
  | .not _ => exact failsOnly_ok
  | .binary _ => exact Arithmetic.apply_failsOnly
  | .index _ => exact (Value.readItem_failsOnly keeps.item _).mono (.mono nofun)
  | .member _ => exact (Value.readProperty_failsOnly keeps.property _).mono (.mono nofun)
  | .call _ =>
      exact (Value.call_failsOnly (fun code receiver => keeps.invoke code receiver _) _).mono
        (.mono nofun)
  | .stopped parts => exact failsOnly_error (parts.failsOnly keeps _ rfl)

theorem EvaluatesAll.failsOnly (keeps : host.KeepsPhase) {exprs : List Expr} {id : Nat}
    {outcome : Outcome (List Value)}
    (evaluates : EvaluatesAll host config context exprs id outcome) :
    FailsOnly (·.OfRun (config.Reports context)) outcome.result := by
  match evaluates with
  | .nil | .cons _ _ => exact failsOnly_ok
  | .first failed => exact failsOnly_error (failed.failsOnly keeps _ rfl)
  | .later _ failed => exact failsOnly_error (failed.failsOnly keeps _ rfl)

end

end

namespace Host.Standard

variable {unbound : String → Prop} {object : HostObject} {name : String} {position : Nat}

theorem property_failsOnly : (property object name).FailsOnly (·.OfRun unbound) := by
  unfold property
  split
  · unfold ledgerProperty
    split
    all_goals first
      | exact Run.failsOnly_pure
      | exact Run.failsOnly_freshId.bind fun _ => Run.failsOnly_pure
  · exact Run.failsOnly_pure

theorem item_failsOnly : (item object position).FailsOnly (·.OfRun unbound) := by
  unfold item
  split
  · unfold ledgerItem
    split
    · exact Run.failsOnly_pure
    · exact Run.failsOnly_fail trivial
  split
  · exact Run.failsOnly_pure
  · exact Run.failsOnly_fail trivial

theorem sumAfter_failsOnly {total : Int} {values : List Value} :
    FailsOnly (·.OfRun unbound) (sumAfter total values) := by
  induction values generalizing total with
  | nil => exact failsOnly_ok
  | cons value rest ih =>
      unfold sumAfter
      split
      · rename_i failed
        exact failsOnly_error (Value.toInteger_failsOnly _ failed)
      · exact ih

theorem sum_failsOnly {receiver : Value} {args : List Value} :
    FailsOnly (·.OfRun unbound) (sum receiver args) := by
  cases receiver with
  | object => exact sumAfter_failsOnly.map
  | _ => exact failsOnly_error trivial

theorem perform_failsOnly (task : Task) (args : List Value) (receiver : Value) :
    (perform task receiver args).FailsOnly (·.OfRun unbound) := by
  cases task with
  | apply =>
      cases args with
      | nil => exact Run.failsOnly_pure
      | cons callee rest =>
          -- The function that is called on has fewer arguments.
          exact Value.call_failsOnly fun code receiver => perform_failsOnly _ rest receiver
  | list =>
      unfold perform
      exact Run.failsOnly_freshId.bind fun _ => Run.failsOnly_pure
  | sum =>
      unfold perform
      exact Run.failsOnly_ofExcept sum_failsOnly
  | fail | divideByZero =>
      unfold perform
      exact Run.failsOnly_fail trivial
  | get =>
      unfold perform
      exact Value.readProperty_failsOnly fun _ _ => property_failsOnly
  | index =>
      unfold perform
      exact Value.readItem_failsOnly fun _ _ => item_failsOnly
  | _ =>
      unfold perform
      exact Run.failsOnly_pure
termination_by structural args

theorem keepsPhase : standard.KeepsPhase :=
  ⟨fun _ _ => property_failsOnly, fun _ _ => item_failsOnly, fun _ _ _ => perform_failsOnly _ _ _⟩

end Host.Standard

/-- The language refuses a source for its syntax, its nesting or an exponent, since it reads the
numbers of all tokens.  What is compiled, from whatever grammar, ends with none of these errors, and
reports a name as unbound only if it is and the configuration asks for that. -/
theorem errors_keep_phase (config : Config) :
    (∀ source error, (Engine.ofConfig config).parse source = .error error →
      (∃ fault, error = .parse fault) ∨
        ∃ power : Nat, error = .exponentOverflow power config.maxExponent ∧
          config.maxExponent < power) ∧
    (∀ source tokens, lexemes source = .ok tokens → ∀ lexeme ∈ tokens, lexeme.Reads) ∧
    ∀ host : Host, host.KeepsPhase →
      (∀ expr program, Program.compile config expr = .ok program → ∀ context id error,
        (program.run host context id).result = .error error →
          error.OfRun (config.Reports context)) ∧
      ∀ grammar source evaluator, Engine.parse ⟨config, grammar⟩ source = .ok evaluator →
        ∀ context error, (evaluator.evaluate host context).result = .error error →
          error.OfRun (config.Reports context) := by
  refine ⟨fun source error => Engine.ofConfig_parse_error, fun source tokens => lexemes_read,
    fun host keeps => ?_⟩
  have runs : ∀ expr program, Program.compile config expr = .ok program → ∀ context id error,
      (program.run host context id).result = .error error →
        error.OfRun (config.Reports context) := by
    intro expr program compiled context id
    obtain ⟨_, compiled⟩ := Program.compile_eq_ok.mp compiled
    exact (Program.evaluates_run expr compiled id).failsOnly keeps
  refine ⟨runs, fun grammar source evaluator done context => ?_⟩
  obtain ⟨_, expr, compiled⟩ := Engine.parse_program done
  exact runs expr evaluator.program compiled context context.nextId

/-- An exponent that is too large, a literal that gave a letter to its denomination, and a name that
is not bound. -/
theorem errors_keep_phase_ether :
    let config : Config := ⟨.error, 3, 4⟩
    (∃ power : Nat, (Engine.ofConfig config).parse "0x1ether + 1e9" =
      .error (.exponentOverflow power 3) ∧ 3 < power) ∧
    (⟨.hex, "0x1", 0⟩ : Lexeme).Reads ∧
    ∃ evaluator, (Engine.ofConfig config).parse "x" = .ok evaluator ∧
      (evaluator.evaluate .standard .empty).result = .error (.unboundVariable "x") ∧
      (EvalError.unboundVariable "x").OfRun (config.Reports .empty) := by
  intro config
  obtain ⟨refuses, reads, runs⟩ := errors_keep_phase config
  have lexed : lexemes "0x1ether" = .ok [⟨.hex, "0x1", 0⟩, ⟨.name, "ether", 3⟩] := by cbv
  have failed : (Engine.ofConfig config).parse "0x1ether + 1e9" =
      .error (.exponentOverflow 9 3) := by cbv
  have parsed : (Engine.ofConfig config).parse "x" =
      .ok ⟨"x", config, .variable "x" .error⟩ := by cbv
  have unbound : (Evaluator.evaluate .standard .empty ⟨"x", config, .variable "x" .error⟩).result =
      .error (.unboundVariable "x") := rfl
  refine ⟨?_, reads _ _ lexed _ List.mem_cons_self, _, parsed, unbound, ?_⟩
  · rcases refuses _ _ failed with ⟨fault, same⟩ | ⟨power, same, large⟩
    · contradiction
    · exact ⟨power, failed.trans (congrArg Except.error same), large⟩
  · exact (runs .standard Host.Standard.keepsPhase).2 .builtin "x" _ parsed .empty _ unbound

end EtherCalc
