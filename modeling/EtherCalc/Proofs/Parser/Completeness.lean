import EtherCalc.Proofs.Language.Boundary
import EtherCalc.Proofs.Parser.Plain

/-!
Every phrase of the grammar is read, and its tree is returned.

After a phrase of a category the parser stands in the loop of that category with the tree of the
phrase in hand: `read` on the phrase is `resume` after it.  The loop ends when what follows cannot
make the phrase longer.  No construct takes more nesting steps than it has lexemes.
-/

namespace EtherCalc.Parser

variable {limit room : Nat} {category : Category} {tokens rest : List Lexeme} {expr : Expr}

theorem expect_found {next : Lexeme} {wanted : Token} (token : next.token = wanted) :
    plain (expect wanted (next :: rest)) = .ok (next.text, rest) := by
  rw [plain_expect]
  exact if_pos token

/-- A loop ends before what cannot make its phrase longer. -/
theorem resume_stops (stops : Stops category.rank rest) :
    resume limit category room expr rest = .ok (expr, rest) := by
  cases category with
  | signed | atom => rfl
  | chain level =>
      cases rest with
      | nil => rw [resume, plain_chainRest_nil]
      | cons next tail =>
          cases found : level.operator? next.token with
          | none => rw [resume, plain_chainRest_stop found]
          | some op =>
              obtain ⟨rfl, token⟩ := Level.operator?_eq_some_iff.mp found
              exact absurd token (stops.other (Nat.le_of_eq (Operator.bond_mark op)))
  | applied =>
      cases rest with
      | nil => rw [resume, plain_appliedRest_nil]
      | cons next tail =>
          rw [resume, plain_appliedRest_stop (stops.other (by decide)) (stops.other (by decide))
            (stops.other (by decide))]

/-- What the parser does after a phrase is nothing where the phrase stops. -/
theorem read_of_stops {phrase : List Lexeme} (stops : Stops category.rank rest)
    (done : ∃ inner, room ≤ inner + phrase.length ∧
      read limit category room (phrase ++ rest) = resume limit category inner expr rest) :
    read limit category room (phrase ++ rest) = .ok (expr, rest) := by
  obtain ⟨_, _, done⟩ := done
  rw [done, resume_stops stops]

theorem suffixed_stops (literal : Expr) (stops : Stops 0 rest) :
    suffixed literal rest = (literal, rest) := by
  cases rest with
  | nil => rfl
  | cons next tail =>
      have other : next.token ≠ .name := stops.other (by decide)
      simp only [suffixed, withUnit, if_neg other]

theorem suffixed_unit (literal : Expr) {word : Lexeme} {unit : Denomination}
    (named : word.token = .name) (isUnit : word.text = unit.word) :
    suffixed literal (word :: rest) = (.amount literal unit, rest) := by
  have found := Denomination.ofWord?_eq_some_iff.mpr isUnit
  simp only [suffixed, withUnit, if_pos named, found]

theorem read_number {lexeme : Lexeme} {literal : Expr} (isNumber : NumberLiteral lexeme literal) :
    read limit .atom room (lexeme :: rest) = .ok (suffixed literal rest) := by
  rw [read, plain_atom]
  cases isNumber with
  | decimal token | hex token => rw [token]
  | scientific token divided isMark isFirst =>
      rw [token, ← scientificParts_eq divided isMark isFirst]

theorem read_name {lexeme : Lexeme} (token : lexeme.token = .name) :
    read limit .atom room (lexeme :: rest) = .ok (.ofName lexeme.text, rest) := by
  rw [read, plain_atom, token]

section

variable {sign dot name opening closing : Lexeme} {phrase : List Lexeme} {left right target : Expr}

/-- One turn of the loop of a level. -/
theorem resume_operator {op : Operator} (token : sign.token = .mark op.mark)
    (done : read limit (.ofOperands op.level) room (phrase ++ rest) = .ok (right, rest)) :
    resume limit (.chain op.level) (room + 1) left (sign :: (phrase ++ rest)) =
      resume limit (.chain op.level) room (.binary op left right) rest := by
  have found := Level.operator?_eq_some_iff.mpr ⟨rfl, token⟩
  rw [resume, plain_chainRest_operator found, descend_eq_ok.mpr rfl]
  simp only [Except.bind]
  rw [plain_operand, done]
  rfl

theorem resume_member (token : dot.token = .mark .dot) (named : name.token = .name) :
    resume limit .applied (room + 1) target (dot :: name :: rest) =
      resume limit .applied room (.member target name.text) rest := by
  rw [resume, plain_appliedRest_member token, descend_eq_ok.mpr rfl]
  simp only [Except.bind, expect_found named]
  rfl

theorem resume_index {position : Expr} (opens : opening.token = .mark .openBracket)
    (done : read limit .whole room (phrase ++ closing :: rest) = .ok (position, closing :: rest))
    (closes : closing.token = .mark .closeBracket) :
    resume limit .applied (room + 1) target (opening :: (phrase ++ closing :: rest)) =
      resume limit .applied room (.index target position) rest := by
  rw [read] at done
  rw [resume, plain_appliedRest_index opens, descend_eq_ok.mpr rfl]
  simp only [Except.bind, done, expect_found closes]
  rfl

theorem resume_call (opens : opening.token = .mark .openParen)
    (closes : closing.token = .mark .closeParen) :
    resume limit .applied (room + 1) target (opening :: closing :: rest) =
      resume limit .applied room (.call target []) rest := by
  rw [resume, plain_appliedRest_call opens, descend_eq_ok.mpr rfl]
  simp only [Except.bind, plain_arguments_close closes]
  rfl

theorem resume_callWith {next : Lexeme} {args : List Expr}
    (opens : opening.token = .mark .openParen) (notClosed : next.token ≠ .mark .closeParen)
    (done : plain (someArguments limit room (next :: phrase)) = .ok (args, rest)) :
    resume limit .applied (room + 1) target (opening :: next :: phrase) =
      resume limit .applied room (.call target args) rest := by
  rw [resume, plain_appliedRest_call opens, descend_eq_ok.mpr rfl]
  simp only [Except.bind, plain_arguments_some notClosed, done]
  rfl

theorem read_group {inner : Expr} (opens : opening.token = .mark .openParen)
    (done : read limit .whole room (phrase ++ closing :: rest) = .ok (inner, closing :: rest))
    (closes : closing.token = .mark .closeParen) :
    read limit .atom (room + 1) (opening :: (phrase ++ closing :: rest)) = .ok (inner, rest) := by
  rw [read] at done
  rw [read, plain_atom, opens]
  simp only [descend, Except.bind, done, expect_found closes]

theorem read_sign {build : Expr → Expr} {operand : Expr} (signs : Signs sign.token build)
    (done : read limit .signed room phrase = .ok (operand, rest)) :
    read limit .signed (room + 1) (sign :: phrase) = .ok (build operand, rest) := by
  rw [read] at done
  rw [read, plain_unary_sign signs, descend_eq_ok.mpr rfl]
  simp only [Except.bind, done]
  rfl

end

/-- A phrase that leaves some of the lexemes to others leaves them a nesting step. -/
theorem step_left {length : Nat} {reached : Nat → Prop} (more : length < room)
    (done : ∃ inner, room ≤ inner + length ∧ reached inner) :
    ∃ inner, room ≤ inner + length + 1 ∧ reached (inner + 1) := by
  obtain ⟨inner, kept, done⟩ := done
  cases inner with
  | zero => omega
  | succ inner => exact ⟨inner, by omega, done⟩

mutual

theorem read_complete (limit : Nat) {room : Nat} {category : Category}
    {phrase rest : List Lexeme} {expr : Expr} (derives : Derives category phrase expr)
    (enough : phrase.length ≤ room) (stops : Stops (category.rank - 1) rest) :
    ∃ inner, room ≤ inner + phrase.length ∧
      read limit category room (phrase ++ rest) = resume limit category inner expr rest := by
  match derives with
  | @Derives.operand level _ _ derives =>
      have stops : Stops (Category.ofOperands level).rank rest := by
        rwa [Category.rank_ofOperands]
      have done := read_of_stops stops
        (read_complete limit derives enough (stops.mono (Nat.sub_le _ _)))
      refine ⟨room, Nat.le_add_right _ _, ?_⟩
      rw [read_chain, done]
      rfl
  | @Derives.binary op sign before after left right first token second =>
      -- The phrase before the operator stops there only for the tighter levels.
      have joins : Stops ((Category.chain op.level).rank - 1) (sign :: (after ++ rest)) :=
        .before token (by rw [Operator.bond_mark]; exact Nat.lt_succ_self _)
      have stops : Stops (Category.ofOperands op.level).rank rest := by
        rwa [Category.rank_ofOperands]
      rw [List.length_append, List.length_cons] at enough ⊢
      have more : before.length < room := by omega
      obtain ⟨inner, kept, done⟩ :=
        step_left more (read_complete limit first (Nat.le_of_lt more) joins)
      have enoughAfter : after.length ≤ inner := by omega
      have doneAfter := read_of_stops stops
        (read_complete limit second enoughAfter (stops.mono (Nat.sub_le _ _)))
      refine ⟨inner, by omega, ?_⟩
      rw [List.append_assoc, List.cons_append, done, resume_operator token doneAfter]
  | .unsigned derives =>
      have stops : Stops Category.applied.rank rest := stops
      have done := read_of_stops stops
        (read_complete limit derives enough (stops.mono (Nat.sub_le _ _)))
      obtain ⟨next, tail, rfl, _⟩ := derives.head
      refine ⟨room, Nat.le_add_right _ _, ?_⟩
      rw [List.cons_append] at done ⊢
      rw [read, plain_unary_applied derives.not_signed.1 derives.not_signed.2]
      exact done
  | .not token derives =>
      obtain ⟨room, rfl⟩ := Nat.exists_eq_succ_of_ne_zero (Nat.ne_zero_of_lt enough)
      obtain ⟨_, _, done⟩ := read_complete limit derives (Nat.le_of_succ_le_succ enough) stops
      exact ⟨room + 1, Nat.le_add_right _ _, read_sign (.inl ⟨token, rfl⟩) done⟩
  | .negate token derives =>
      obtain ⟨room, rfl⟩ := Nat.exists_eq_succ_of_ne_zero (Nat.ne_zero_of_lt enough)
      obtain ⟨_, _, done⟩ := read_complete limit derives (Nat.le_of_succ_le_succ enough) stops
      exact ⟨room + 1, Nat.le_add_right _ _, read_sign (.inr ⟨token, rfl⟩) done⟩
  | .bare derives =>
      obtain ⟨_, _, done⟩ := read_complete limit derives enough stops
      refine ⟨room, Nat.le_add_right _ _, ?_⟩
      rw [read_applied, done]
      rfl
  | @Derives.member dot name before target derives token named =>
      have joins : Stops 0 (dot :: name :: rest) := .before token (by decide)
      rw [List.length_append, List.length_cons, List.length_singleton] at enough ⊢
      have more : before.length < room := by omega
      obtain ⟨inner, kept, done⟩ :=
        step_left more (read_complete limit derives (Nat.le_of_lt more) joins)
      refine ⟨inner, by omega, ?_⟩
      rw [List.append_assoc, List.cons_append, List.singleton_append, done,
        resume_member token named]
  | @Derives.index opening closing before inside target position derives opens middle closes =>
      have joins : Stops 0 (opening :: (inside ++ closing :: rest)) := .before opens (by decide)
      have closed : Stops Category.whole.rank (closing :: rest) := .before closes (by decide)
      simp only [List.length_append, List.length_cons, List.length_nil] at enough ⊢
      have more : before.length < room := by omega
      obtain ⟨inner, kept, done⟩ :=
        step_left more (read_complete limit derives (Nat.le_of_lt more) joins)
      have enoughInside : inside.length ≤ inner := by omega
      have doneInside := read_of_stops closed
        (read_complete limit middle enoughInside (closed.mono (Nat.sub_le _ _)))
      refine ⟨inner, by omega, ?_⟩
      rw [List.append_assoc, List.cons_append, List.append_assoc, List.singleton_append, done,
        resume_index opens doneInside closes]
  | @Derives.call opening closing before callee derives opens closes =>
      have joins : Stops 0 (opening :: closing :: rest) := .before opens (by decide)
      rw [List.length_append, List.length_cons, List.length_singleton] at enough ⊢
      have more : before.length < room := by omega
      obtain ⟨inner, kept, done⟩ :=
        step_left more (read_complete limit derives (Nat.le_of_lt more) joins)
      refine ⟨inner, by omega, ?_⟩
      rw [List.append_assoc, List.cons_append, List.singleton_append, done,
        resume_call opens closes]
  | @Derives.callWith opening closing before inside callee args derives opens middle closes =>
      have joins : Stops 0 (opening :: (inside ++ closing :: rest)) := .before opens (by decide)
      simp only [List.length_append, List.length_cons, List.length_nil] at enough ⊢
      have more : before.length < room := by omega
      obtain ⟨inner, kept, done⟩ :=
        step_left more (read_complete limit derives (Nat.le_of_lt more) joins)
      have enoughInside : inside.length ≤ inner := by omega
      have doneInside : plain (someArguments limit inner (inside ++ closing :: rest)) =
          .ok (args, rest) := someArguments_complete limit middle enoughInside closes
      obtain ⟨next, tail, rfl, notClosed⟩ := middle.head
      refine ⟨inner, by omega, ?_⟩
      rw [List.append_assoc, List.cons_append, List.append_assoc, List.singleton_append, done]
      exact resume_callWith opens notClosed doneInside
  | .number isNumber =>
      refine ⟨room, Nat.le_add_right _ _, ?_⟩
      rw [List.singleton_append, read_number isNumber, suffixed_stops _ stops]
      rfl
  | .amount isNumber named isUnit =>
      refine ⟨room, Nat.le_add_right _ _, ?_⟩
      rw [List.cons_append, List.singleton_append, read_number isNumber,
        suffixed_unit _ named isUnit]
      rfl
  | .string token =>
      refine ⟨room, Nat.le_add_right _ _, ?_⟩
      rw [List.singleton_append, read, plain_atom, token]
      rfl
  | .bool token reserved =>
      refine ⟨room, Nat.le_add_right _ _, ?_⟩
      rw [List.singleton_append, read_name token, Expr.ofName, reserved]
      rfl
  | .variable token free =>
      refine ⟨room, Nat.le_add_right _ _, ?_⟩
      rw [List.singleton_append, read_name token, Expr.ofName, free]
      rfl
  | @Derives.group opening closing inside _ opens middle closes =>
      have closed : Stops Category.whole.rank (closing :: rest) := .before closes (by decide)
      obtain ⟨room, rfl⟩ := Nat.exists_eq_succ_of_ne_zero (Nat.ne_zero_of_lt enough)
      simp only [List.length_append, List.length_cons, List.length_nil] at enough
      have enoughInside : inside.length ≤ room := by omega
      have doneInside := read_of_stops closed
        (read_complete limit middle enoughInside (closed.mono (Nat.sub_le _ _)))
      refine ⟨room + 1, Nat.le_add_right _ _, ?_⟩
      rw [List.cons_append, List.append_assoc, List.singleton_append,
        read_group opens doneInside closes]
      rfl

theorem someArguments_complete (limit : Nat) {room : Nat} {phrase rest : List Lexeme}
    {closing : Lexeme} {args : List Expr} (derives : DerivesArguments phrase args)
    (enough : phrase.length ≤ room) (closes : closing.token = .mark .closeParen) :
    plain (someArguments limit room (phrase ++ closing :: rest)) = .ok (args, rest) := by
  match derives with
  | .one only =>
      have closed : Stops Category.whole.rank (closing :: rest) :=
        .before closes (by decide)
      have done := read_of_stops closed
        (read_complete limit only enough (closed.mono (Nat.sub_le _ _)))
      rw [read] at done
      rw [plain_someArguments, done]
      simp only [Except.bind, closes]
  | @DerivesArguments.more comma before later first args derives token more =>
      have closed : Stops Category.whole.rank (comma :: (later ++ closing :: rest)) :=
        .before token (by decide)
      rw [List.length_append, List.length_cons] at enough
      have enoughFirst : before.length ≤ room := by omega
      have done := read_of_stops closed
        (read_complete limit derives enoughFirst (closed.mono (Nat.sub_le _ _)))
      have doneMore : plain (someArguments limit room (later ++ closing :: rest)) = .ok (args, rest) :=
        someArguments_complete limit more (by omega) closes
      rw [read] at done
      rw [List.append_assoc, List.cons_append, plain_someArguments, done]
      simp only [Except.bind, token]
      rw [doneMore]
      rfl

end

end EtherCalc.Parser
