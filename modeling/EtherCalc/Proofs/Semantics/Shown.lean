import EtherCalc.Proofs.Lexer.Adjacency
import EtherCalc.Proofs.Parser.RoundTrip
import EtherCalc.Proofs.Semantics.Exactness
import EtherCalc.Proofs.Semantics.Limits
import EtherCalc.Value.Text
import Mathlib

namespace EtherCalc

/-- The tree of the text that an integer is shown as. -/
def Expr.ofInteger : Int → Expr
  | .ofNat count => .number (toString count)
  | .negSucc count => .negate (.number (toString (count + 1)))

/-- The tokens of the text that an integer is shown as. -/
def integerWords : Int → List String
  | .ofNat count => [toString count]
  | .negSucc count => ["-", toString (count + 1)]

section

variable {n : Int} {words : List String} {after : List Char} {config : Config}

theorem natural_spells (count : Nat) : Token.decimal.Spells (toString count).toList := by
  rw [Nat.toString_eq_repr, Nat.toList_repr]
  exact Numeral.digits_toDigits count

theorem Expr.ofInteger_wellFormed : (ofInteger n).WellFormed := by
  cases n with
  | ofNat count => exact .inl (natural_spells count)
  | negSucc count => exact .inl (natural_spells (count + 1))

theorem Expr.ofInteger_written : Written .whole (ofInteger n) (integerWords n) := by
  cases n with
  | ofNat count => exact .bare (Category.rank_le_whole _) .number
  | negSucc count =>
      exact .bare (Category.rank_le_whole _) (.negate (.bare (Nat.zero_le _) .number))

theorem Expr.ofInteger_height : (ofInteger n).height ≤ 1 := by
  cases n with
  | ofNat count => exact Nat.zero_le _
  | negSucc count => exact Nat.le_refl _

theorem Program.ofExpr_ofInteger (n : Int) : ∃ program, ofExpr config (.ofInteger n) = .ok program ∧
    ∀ host context, program.run host context = pure (.big n) := by
  cases n with
  | ofNat count =>
      have read : Numeral.read (toString count) = .ok (count : Int) := Numeral.read_toString count
      refine ⟨.literal (.big count), ?_, fun host context => rfl⟩
      rw [Expr.ofInteger, ofExpr, read]
      rfl
  | negSucc count =>
      have read : Numeral.read (toString (count + 1)) = .ok ((count + 1 : Nat) : Int) :=
        Numeral.read_toString (count + 1 : Nat)
      refine ⟨.negate (.literal (.big (count + 1 : Nat))), ?_, fun host context => rfl⟩
      rw [Expr.ofInteger, ofExpr, ofExpr, read]
      rfl

theorem display_joined (stops : ∀ c ∈ after.head?, Lexer.continuesName c = false)
    (later : Lexer.Joined words after) :
    Lexer.Joined (integerWords n ++ words) ((Value.big n).display.toList ++ after) := by
  have number (count : Nat) :
      Lexer.Joined (toString count :: words) ((toString count).toList ++ after) :=
    .longest (Lexer.numeral_longest rfl (natural_spells count) stops) nofun later
  cases n with
  | ofNat count => exact number count
  | negSucc count =>
      have minus : (Value.big (.negSucc count)).display.toList =
          Mark.minus.spelling.toList ++ (toString (count + 1)).toList := String.toList_append
      rw [minus, List.append_assoc]
      exact .mark .minus nofun (number (count + 1))

/-- The texts of two integers in parentheses around an operator, with what stands beside it. -/
def operationText (op : Operator) (m n : Int) (before between : List Char) : String :=
  "(" ++ (Value.big m).display ++ ")" ++ String.ofList before ++ op.symbol ++
    String.ofList between ++ "(" ++ (Value.big n).display ++ ")"

def operationWords (op : Operator) (m n : Int) : List String :=
  ("(" :: (integerWords m ++ [")"])) ++ op.symbol :: "(" :: (integerWords n ++ [")"])

theorem group_joined (later : Lexer.Joined words after) :
    Lexer.Joined ("(" :: (integerWords n ++ ")" :: words))
      ('(' :: ((Value.big n).display.toList ++ ')' :: after)) := by
  have closed : Lexer.Joined (")" :: words) (')' :: after) := .mark .closeParen nofun later
  have stops : ∀ c ∈ (')' :: after).head?, Lexer.continuesName c = false := by
    rintro _ same
    cases same
    decide
  exact .mark .openParen nofun (display_joined stops closed)

theorem operation_joined {op : Operator} {m : Int} {before between : List Char}
    (blank : ∀ c ∈ before, Lexer.isSpace c = true)
    (blankToo : ∀ c ∈ between, Lexer.isSpace c = true) :
    Lexer.Joined (operationWords op m n) (operationText op m n before between).toList := by
  have right : Lexer.Joined _ (between ++ '(' :: ((Value.big n).display.toList ++ [')'])) :=
    .skip blankToo (group_joined .done)
  -- Only an equals sign could go on with the operator.
  have plain : (between ++ '(' :: ((Value.big n).display.toList ++ [')'])).head? ≠ some '=' := by
    cases between with
    | nil => simp
    | cons c between =>
        intro same
        cases same
        exact absurd (blankToo '=' List.mem_cons_self) (by decide)
  have sign := Lexer.Joined.mark op.mark (fun _ => plain) right
  have joined := group_joined (n := m) (.skip blank sign)
  simpa [operationWords, operationText, Operator.spelling_mark] using joined

theorem Engine.evaluate_joined {source : String} {expr : Expr} {host : Host} {context : Context}
    (joined : Lexer.Joined words source.toList) (wellFormed : expr.WellFormed)
    (written : Written .whole expr words) (enough : words.length ≤ config.maxDepth)
    (low : expr.height ≤ config.maxDepth) :
    (ofConfig config).evaluate host context source =
      match Program.ofExpr config expr with
      | .error error => ⟨.error error, [], context.nextId⟩
      | .ok program => program.run host context context.nextId := by
  obtain ⟨tokens, lexed, texts⟩ := lexemes_of_joined joined
  exact evaluate_parsed (Parser.parse_of_texts wellFormed written lexed texts enough) low

theorem operation_written {op : Operator} {m : Int} :
    Written .whole (.binary op (.ofInteger m) (.ofInteger n)) (operationWords op m n) :=
  .bare (Category.rank_le_whole _)
    (.binary (.grouped Expr.ofInteger_written) (.grouped Expr.ofInteger_written))

theorem integerWords_length : (integerWords n).length ≤ 2 := by
  cases n with
  | ofNat count => exact Nat.le_succ 1
  | negSucc count => exact Nat.le_refl 2

section

variable {host : Host} {context : Context}

theorem evaluate_display (deep : 2 ≤ config.maxDepth) :
    (Engine.ofConfig config).evaluate host context (Value.big n).display =
      ⟨.ok (.big n), [], context.nextId⟩ := by
  have joined : Lexer.Joined (integerWords n) (Value.big n).display.toList := by
    have stops : ∀ c ∈ ([] : List Char).head?, Lexer.continuesName c = false := nofun
    simpa using display_joined stops .done
  have few : (integerWords n).length ≤ 2 := integerWords_length
  have low : (Expr.ofInteger n).height ≤ 1 := Expr.ofInteger_height
  obtain ⟨program, compiled, runs⟩ := Program.ofExpr_ofInteger n
  rw [Engine.evaluate_joined joined Expr.ofInteger_wellFormed Expr.ofInteger_written
    (Nat.le_trans few deep) (by omega), compiled]
  simp only [runs]
  rfl

theorem evaluate_operation {op : Operator} {m : Int} {before between : List Char}
    (deep : 9 ≤ config.maxDepth) (blank : ∀ c ∈ before, Lexer.isSpace c = true)
    (blankToo : ∀ c ∈ between, Lexer.isSpace c = true) :
    (Engine.ofConfig config).evaluate host context (operationText op m n before between) =
      ⟨Arithmetic.apply op (.big m) (.big n), [], context.nextId⟩ := by
  have few : (operationWords op m n).length ≤ 9 := by
    have left : (integerWords m).length ≤ 2 := integerWords_length
    have right : (integerWords n).length ≤ 2 := integerWords_length
    simp only [operationWords, List.length_append, List.length_cons, List.length_nil]
    omega
  have low : (Expr.binary op (.ofInteger m) (.ofInteger n)).height ≤ 2 :=
    Nat.succ_le_succ (Nat.max_le.mpr ⟨Expr.ofInteger_height, Expr.ofInteger_height⟩)
  have wellFormed : (Expr.binary op (.ofInteger m) (.ofInteger n)).WellFormed :=
    ⟨Expr.ofInteger_wellFormed, Expr.ofInteger_wellFormed⟩
  obtain ⟨left, compiledLeft, runsLeft⟩ := Program.ofExpr_ofInteger m
  obtain ⟨right, compiledRight, runsRight⟩ := Program.ofExpr_ofInteger n
  rw [Engine.evaluate_joined (operation_joined blank blankToo) wellFormed operation_written
    (Nat.le_trans few deep) (by omega), Program.ofExpr_binary compiledLeft compiledRight]
  simp only [Program.run, runsLeft, runsRight]
  have done (value : Value) : (pure value : Run Value) context.nextId =
      ⟨.ok value, [], context.nextId⟩ := rfl
  rw [Run.bind_ok (done _), Run.bind_ok (done _), Outcome.after_after, Run.ofExcept_after]
  rfl

theorem evaluate_quoted {text : String} (deep : 1 ≤ config.maxDepth) (plain : '\'' ∉ text.toList) :
    (Engine.ofConfig config).evaluate host context ("'" ++ text ++ "'") =
      ⟨.ok (.string text), [], context.nextId⟩ := by
  have chars : ("'" ++ text ++ "'").toList = '\'' :: text.toList ++ ['\''] := by simp
  have spelled : Token.string.Spells ("'" ++ text ++ "'").toList := ⟨text.toList, chars, plain⟩
  have joined : Lexer.Joined ["'" ++ text ++ "'"] ("'" ++ text ++ "'").toList := by
    have longest : Token.string.Longest _ [] := Lexer.longest_of_ends spelled nofun
    simpa using Lexer.Joined.longest longest nofun .done
  have wellFormed : (Expr.string ("'" ++ text ++ "'")).WellFormed := spelled
  have written : Written .whole (.string ("'" ++ text ++ "'")) ["'" ++ text ++ "'"] :=
    .bare (Category.rank_le_whole _) .string
  have inside : Program.unquoted ("'" ++ text ++ "'") = text := by
    simp [Program.unquoted, chars]
  rw [Engine.evaluate_joined joined wellFormed written deep (Nat.zero_le _), Program.ofExpr, inside]
  rfl

end

/-- Scalars are evaluated to themselves, and operators on the texts of integers are the operators
on the integers. -/
theorem shown_evaluates :
    (∀ (n : Int) (host : Host) (context : Context),
      (Engine.ofConfig .default).evaluate host context (Value.big n).display =
        ⟨.ok (.big n), [], context.nextId⟩) ∧
    (∀ (op : Operator) (m n : Int) (before between : List Char),
      (∀ c ∈ before, Lexer.isSpace c = true) → (∀ c ∈ between, Lexer.isSpace c = true) →
      ∀ (host : Host) (context : Context),
        (Engine.ofConfig .default).evaluate host context (operationText op m n before between) =
          ⟨Arithmetic.apply op (.big m) (.big n), [], context.nextId⟩) ∧
    ∀ text : String, '\'' ∉ text.toList → ∀ (host : Host) (context : Context),
      (Engine.ofConfig .default).evaluate host context ("'" ++ text ++ "'") =
        ⟨.ok (.string text), [], context.nextId⟩ := by
  refine ⟨?_, ?_, ?_⟩
  · intro n host context
    exact evaluate_display (by decide)
  · intro op m n before between blank blankToo host context
    exact evaluate_operation (by decide) blank blankToo
  · intro text plain host context
    exact evaluate_quoted (by decide) plain

/-- A negative integer divided by zero, and a string with a line break and a letter of two bytes. -/
theorem shown_evaluates_division :
    ∀ host context,
      (Engine.ofConfig .default).evaluate host context "(-7)\n/ (0)" =
        ⟨.error .divisionByZero, [], context.nextId⟩ ∧
      (Engine.ofConfig .default).evaluate host context "'é\n'" =
        ⟨.ok (.string "é\n"), [], context.nextId⟩ := by
  intro host context
  obtain ⟨_, operations, strings⟩ := shown_evaluates
  have line : ∀ c ∈ ['\n'], Lexer.isSpace c = true := List.all_eq_true.mp (by decide)
  have space : ∀ c ∈ [' '], Lexer.isSpace c = true := List.all_eq_true.mp (by decide)
  have text : operationText .div (-7) 0 ['\n'] [' '] = "(-7)\n/ (0)" := by decide
  refine ⟨?_, strings "é\n" (by decide) host context⟩
  rw [← text, operations .div (-7) 0 ['\n'] [' '] line space host context]
  rfl

end

end EtherCalc
