import EtherCalc.Parser
import EtherCalc.Proofs.Language.Derivation
import EtherCalc.Proofs.Sequence

/-!
The parser as equations between plain results.

A `Taken` carries a bound on what is left, which serves termination alone.  `plain` forgets it, and
then every function of the parser is the functions it calls, one after the other, and `descend`
where a nesting step is taken.  Proofs about the parser go through these equations.
-/

namespace EtherCalc.Parser

/-- What was read and what is left, without the bound. -/
def plain {α : Type} {bound : Nat} (outcome : Except Refusal (Taken α Lexeme bound)) :
    Except Refusal (α × List Lexeme) :=
  outcome.map fun taken => (taken.value, taken.rest)

/-- Takes one of the nesting steps still allowed. -/
def descend (limit room : Nat) (rest : List Lexeme) : Except Refusal Nat :=
  match room with
  | 0 => .error ⟨.tooDeep limit, rest⟩
  | room + 1 => .ok room

section

variable {α : Type} {bound : Nat} {limit room : Nat} {level : Level} {left target : Expr}
variable {next : Lexeme} {tokens rest : List Lexeme}

@[simp] theorem plain_ok {taken : Taken α Lexeme bound} :
    plain (.ok taken) = .ok (taken.value, taken.rest) :=
  rfl

@[simp] theorem plain_error {refusal : Refusal} :
    plain (.error refusal : Except Refusal (Taken α Lexeme bound)) = .error refusal :=
  rfl

theorem plain_shorter {outcome : Except Refusal (Taken α Lexeme bound)} {value : α}
    (read : plain outcome = .ok (value, rest)) : rest.length < bound := by
  cases outcome with
  | error refusal => contradiction
  | ok taken =>
      cases read
      exact taken.shorter

theorem descend_eq_ok {inner : Nat} : descend limit room rest = .ok inner ↔ room = inner + 1 := by
  cases room <;> simp [descend]

theorem plain_chain : plain (chain limit level room tokens) =
    (plain (operand limit level room tokens)).bind fun read =>
      plain (chainRest limit level room read.1 read.2) := by
  rw [chain]
  rcases operand limit level room tokens with refusal | ⟨first, rest, shorter⟩
  · rfl
  · simp only [plain_ok, Except.bind]
    cases chainRest limit level room first rest <;> rfl

theorem plain_chainRest_nil : plain (chainRest limit level room left []) = .ok (left, []) := by
  rw [chainRest]
  rfl

theorem plain_chainRest_stop (other : level.operator? next.token = none) :
    plain (chainRest limit level room left (next :: rest)) = .ok (left, next :: rest) := by
  rw [chainRest]
  split
  · rfl
  · rename_i op found
    cases other.symm.trans found

theorem plain_chainRest_operator {op : Operator} (found : level.operator? next.token = some op) :
    plain (chainRest limit level room left (next :: rest)) =
      (descend limit room rest).bind fun room =>
        (plain (operand limit level room rest)).bind fun read =>
          plain (chainRest limit level room (.binary op left read.1) read.2) := by
  rw [chainRest]
  split
  · rename_i other
    cases other.symm.trans found
  · rename_i op' found'
    cases found.symm.trans found'
    cases room with
    | zero => rfl
    | succ room =>
        simp only [descend, Except.bind]
        rcases operand limit level room rest with refusal | ⟨right, rest', shorter⟩
        · rfl
        · simp only [plain_ok]
          cases chainRest limit level room (.binary op left right) rest' <;> rfl

theorem plain_unary_nil : plain (unary limit room []) = .error ⟨.endOfInput, []⟩ := by
  rw [unary]
  rfl

/-- The token is a sign, and what it makes of its operand. -/
def Signs (token : Token) (build : Expr → Expr) : Prop :=
  token = .mark .bang ∧ build = .not ∨ token = .mark .minus ∧ build = .negate

theorem plain_unary_sign {build : Expr → Expr} (sign : Signs next.token build) :
    plain (unary limit room (next :: rest)) =
      (descend limit room rest).bind fun room =>
        (plain (unary limit room rest)).map fun read => (build read.1, read.2) := by
  rw [unary.eq_def]
  rcases sign with ⟨token, rfl⟩ | ⟨token, rfl⟩ <;> simp only [token] <;> cases room with
  | zero => rfl
  | succ room =>
      simp only [descend, Except.bind]
      cases unary limit room rest <;> rfl

theorem plain_unary_applied (noNot : next.token ≠ .mark .bang)
    (noMinus : next.token ≠ .mark .minus) :
    plain (unary limit room (next :: rest)) = plain (applied limit room (next :: rest)) := by
  rw [unary.eq_def]
  dsimp only
  split
  · contradiction
  · contradiction
  · rfl

theorem plain_applied : plain (applied limit room tokens) =
    (plain (atom limit room tokens)).bind fun read =>
      plain (appliedRest limit room read.1 read.2) := by
  rw [applied]
  rcases atom limit room tokens with refusal | ⟨first, rest, shorter⟩
  · rfl
  · simp only [plain_ok, Except.bind]
    cases appliedRest limit room first rest <;> rfl

theorem plain_expect {wanted : Token} : plain (expect wanted tokens) =
    match tokens with
    | [] => .error ⟨.endOfInput, []⟩
    | next :: rest =>
        if next.token = wanted then .ok (next.text, rest)
        else .error ⟨.expected wanted next.token, next :: rest⟩ := by
  cases tokens with
  | nil => rfl
  | cons next rest =>
      simp only [expect]
      split <;> rfl

theorem plain_appliedRest_nil :
    plain (appliedRest limit room target []) = .ok (target, []) := by
  rw [appliedRest]
  rfl

theorem plain_appliedRest_member (token : next.token = .mark .dot) :
    plain (appliedRest limit room target (next :: rest)) =
      (descend limit room rest).bind fun room =>
        (plain (expect .name rest)).bind fun name =>
          plain (appliedRest limit room (.member target name.1) name.2) := by
  rw [appliedRest.eq_def]
  simp only [token]
  cases room with
  | zero => rfl
  | succ room =>
      simp only [descend, Except.bind]
      rcases expect .name rest with refusal | ⟨name, rest', shorter⟩
      · rfl
      · simp only [plain_ok]
        cases appliedRest limit room (.member target name) rest' <;> rfl

theorem plain_appliedRest_index (token : next.token = .mark .openBracket) :
    plain (appliedRest limit room target (next :: rest)) =
      (descend limit room rest).bind fun room =>
        (plain (chain limit .disjunction room rest)).bind fun position =>
          (plain (expect (.mark .closeBracket) position.2)).bind fun close =>
            plain (appliedRest limit room (.index target position.1) close.2) := by
  rw [appliedRest.eq_def]
  simp only [token]
  cases room with
  | zero => rfl
  | succ room =>
      simp only [descend, Except.bind]
      rcases chain limit .disjunction room rest with refusal | ⟨position, rest', shorter⟩
      · rfl
      · simp only [plain_ok]
        rcases expect (.mark .closeBracket) rest' with refusal | ⟨close, rest'', shorter'⟩
        · rfl
        · simp only [plain_ok]
          cases appliedRest limit room (.index target position) rest'' <;> rfl

theorem plain_appliedRest_call (token : next.token = .mark .openParen) :
    plain (appliedRest limit room target (next :: rest)) =
      (descend limit room rest).bind fun room =>
        (plain (arguments limit room rest)).bind fun args =>
          plain (appliedRest limit room (.call target args.1) args.2) := by
  rw [appliedRest.eq_def]
  simp only [token]
  cases room with
  | zero => rfl
  | succ room =>
      simp only [descend, Except.bind]
      rcases arguments limit room rest with refusal | ⟨args, rest', shorter⟩
      · rfl
      · simp only [plain_ok]
        cases appliedRest limit room (.call target args) rest' <;> rfl

theorem plain_appliedRest_stop (noMember : next.token ≠ .mark .dot)
    (noIndex : next.token ≠ .mark .openBracket) (noCall : next.token ≠ .mark .openParen) :
    plain (appliedRest limit room target (next :: rest)) = .ok (target, next :: rest) := by
  rw [appliedRest.eq_def]
  dsimp only
  split
  · contradiction
  · contradiction
  · contradiction
  · rfl

theorem plain_atom_nil : plain (atom limit room []) = .error ⟨.endOfInput, []⟩ := by
  rw [atom]
  rfl

/-- A literal with its denomination, if one follows, and what is left. -/
def suffixed (literal : Expr) (tokens : List Lexeme) : Expr × List Lexeme :=
  ((withUnit literal tokens).value, (withUnit literal tokens).rest)

theorem plain_atom : plain (atom limit room (next :: rest)) =
    match next.token with
    | .decimal | .hex => .ok (suffixed (.number next.text) rest)
    | .scientific => .ok (suffixed (scientificParts next.text) rest)
    | .string => .ok (.string next.text, rest)
    | .name => .ok (.ofName next.text, rest)
    | .mark .openParen =>
        (descend limit room rest).bind fun room =>
          (plain (chain limit .disjunction room rest)).bind fun inner =>
            (plain (expect (.mark .closeParen) inner.2)).bind fun close =>
              .ok (inner.1, close.2)
    | found => .error ⟨.unexpected found, next :: rest⟩ := by
  obtain ⟨token, text, start⟩ := next
  rw [atom.eq_def]
  cases token with
  | mark symbol =>
      cases symbol with
      | openParen =>
          cases room with
          | zero => rfl
          | succ room =>
              simp only [descend, Except.bind]
              rcases chain limit .disjunction room rest with refusal | ⟨inner, rest', shorter⟩
              · rfl
              · simp only [plain_ok]
                cases expect (.mark .closeParen) rest' <;> rfl
      | _ => rfl
  | _ => rfl

theorem plain_arguments_nil : plain (arguments limit room []) = .error ⟨.endOfInput, []⟩ := by
  rw [arguments]
  rfl

theorem plain_arguments_close (token : next.token = .mark .closeParen) :
    plain (arguments limit room (next :: rest)) = .ok ([], rest) := by
  rw [arguments, if_pos token]
  rfl

theorem plain_arguments_some (token : next.token ≠ .mark .closeParen) :
    plain (arguments limit room (next :: rest)) =
      plain (someArguments limit room (next :: rest)) := by
  rw [arguments, if_neg token]

theorem plain_someArguments : plain (someArguments limit room tokens) =
    (plain (chain limit .disjunction room tokens)).bind fun first =>
      match first.2 with
      | [] => .error ⟨.endOfInput, []⟩
      | next :: rest =>
          match next.token with
          | .mark .comma =>
              (plain (someArguments limit room rest)).map fun more => (first.1 :: more.1, more.2)
          | .mark .closeParen => .ok ([first.1], rest)
          | found => .error ⟨.unseparated found, next :: rest⟩ := by
  rw [someArguments]
  rcases chain limit .disjunction room tokens with
    refusal | ⟨first, _ | ⟨⟨token, text, start⟩, rest⟩, shorter⟩
  · rfl
  · rfl
  · simp only [plain_ok, Except.bind]
    cases token with
    | mark symbol =>
        cases symbol with
        | comma => cases someArguments limit room rest <;> rfl
        | _ => rfl
    | _ => rfl

/-- The character is not the mark between the parts of a scientific literal. -/
def notMark (c : Char) : Bool :=
  !(c == 'e' || c == 'E')

/-- A scientific literal is divided at its first mark. -/
theorem scientificParts_eq {text mantissa exponent : String} {mark : Char}
    (divided : text.toList = mantissa.toList ++ mark :: exponent.toList)
    (isMark : mark = 'e' ∨ mark = 'E')
    (isFirst : 'e' ∉ mantissa.toList ∧ 'E' ∉ mantissa.toList) :
    scientificParts text = .scientific mantissa exponent := by
  have before : ∀ c ∈ mantissa.toList, notMark c = true := by
    intro c member
    have notLower : c ≠ 'e' := fun same => isFirst.1 (same ▸ member)
    have notUpper : c ≠ 'E' := fun same => isFirst.2 (same ▸ member)
    simp [notMark, notLower, notUpper]
  have stops : ¬ notMark mark = true := by
    rcases isMark with rfl | rfl <;> decide
  change Expr.scientific (String.ofList (text.toList.takeWhile notMark))
    (String.ofList ((text.toList.dropWhile notMark).drop 1)) = _
  rw [divided, List.takeWhile_append_of_pos before, List.dropWhile_append_of_pos before,
    List.takeWhile_cons_of_neg stops, List.dropWhile_cons_of_neg stops, List.append_nil,
    List.drop_succ_cons, List.drop_zero, String.ofList_toList, String.ofList_toList]

/-- Reads a phrase of a category. -/
def read (limit : Nat) (category : Category) (room : Nat) (tokens : List Lexeme) :
    Except Refusal (Expr × List Lexeme) :=
  match category with
  | .chain level => plain (chain limit level room tokens)
  | .signed => plain (unary limit room tokens)
  | .applied => plain (applied limit room tokens)
  | .atom => plain (atom limit room tokens)

/-- Makes a phrase longer that is read already, as far as it goes. -/
def resume (limit : Nat) (category : Category) (room : Nat) (expr : Expr)
    (tokens : List Lexeme) : Except Refusal (Expr × List Lexeme) :=
  match category with
  | .chain level => plain (chainRest limit level room expr tokens)
  | .applied => plain (appliedRest limit room expr tokens)
  | .signed | .atom => .ok (expr, tokens)

theorem plain_operand : plain (operand limit level room tokens) =
    read limit (.ofOperands level) room tokens := by
  cases level <;> rw [operand] <;> rfl

theorem read_chain : read limit (.chain level) room tokens =
    (read limit (.ofOperands level) room tokens).bind fun first =>
      resume limit (.chain level) room first.1 first.2 := by
  rw [read, plain_chain, plain_operand]
  rfl

theorem read_applied : read limit .applied room tokens =
    (read limit .atom room tokens).bind fun first =>
      resume limit .applied room first.1 first.2 :=
  plain_applied

theorem read_shorter {category : Category} {expr : Expr}
    (done : read limit category room tokens = .ok (expr, rest)) :
    rest.length < tokens.length := by
  cases category <;> exact plain_shorter done

end

end EtherCalc.Parser
