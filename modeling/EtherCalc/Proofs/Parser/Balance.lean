import EtherCalc.Proofs.Language.Boundary
import EtherCalc.Proofs.Parser.Walk
import Mathlib

namespace EtherCalc

namespace Category

/-- How many calls are nested from the start of a phrase to its first atom. -/
def calls : Category → Nat
  | .chain level => 2 * level.height + 5
  | .signed => 3
  | .applied => 2
  | .atom => 1

theorem calls_le (category : Category) : category.calls ≤ 13 := by
  cases category with
  | chain level => cases level <;> decide
  | signed | applied | atom => decide

theorem calls_chain (level : Level) : (chain level).calls = (ofOperands level).calls + 2 := by
  cases level <;> rfl

end Category

namespace Parser

/-- So many nested calls suffice for what is left, if the first atom is so many calls away: each
further round of calls takes a nesting step and a lexeme. -/
def Enough (room : Nat) (rest : List Lexeme) (away calls : Nat) : Prop :=
  13 * min room rest.length + away ≤ calls

section

variable {room room' away away' calls : Nat} {rest rest' : List Lexeme} {lead : Lexeme}

theorem Enough.call (enough : Enough room rest (away + 1) calls) :
    ∃ fewer, calls = fewer + 1 ∧ Enough room rest away fewer := by
  cases calls with
  | zero => contradiction
  | succ fewer => exact ⟨fewer, rfl, Nat.le_of_succ_le_succ enough⟩

theorem Enough.mono (enough : Enough room rest away calls)
    (le : 13 * min room' rest'.length + away' ≤ 13 * min room rest.length + away) :
    Enough room' rest' away' calls :=
  le.trans enough

theorem Enough.nearer (enough : Enough room rest away calls) (le : away' ≤ away) :
    Enough room rest away' calls :=
  enough.mono (Nat.add_le_add_left le _)

/-- After a nesting step and a lexeme there are enough calls for a further round. -/
theorem Enough.deeper (enough : Enough (room + 1) (lead :: rest) away calls) :
    Enough room rest (away + 13) calls :=
  enough.mono (by rw [List.length_cons]; omega)

theorem Enough.later (enough : Enough room rest away calls)
    (shorter : rest'.length < rest.length) : Enough room rest' away calls :=
  enough.mono (by omega)

end

theorem read_nil {limit room : Nat} (category : Category) :
    read limit category room [] = .error ⟨.endOfInput, []⟩ := by
  cases category with
  | atom => exact plain_atom_nil
  | signed => exact plain_unary_nil
  | applied => rw [read_applied, read_nil .atom, Except.bind]
  | chain level =>
      rw [read_chain, read_nil (.ofOperands level), Except.bind]
termination_by category.rank
decreasing_by
  all_goals subst_vars
  · decide
  · exact Category.rank_ofOperands_lt _

namespace Walk

/-- Wherever so many calls suffice, the walk comes to what is read there. -/
def Follows {α : Type} (limit : Nat) (tokens : List Lexeme) (away calls : Nat) (walk : Walk α)
    (reading : Nat → List Lexeme → Except Refusal (α × List Lexeme)) : Prop :=
  ∀ {cursor : Cursor} {depth room : Nat} {rest : List Lexeme},
    cursor.Stands limit tokens depth rest → depth + room = limit → Enough room rest away calls →
      Reaches limit tokens depth walk cursor (reading room rest)

section

variable {limit calls depth room : Nat} {tokens rest : List Lexeme} {cursor : Cursor}

/-- A loop stands above the depth at which its construct began by the steps that it has taken so far,
and gives them back at its end. -/
theorem chainLoop_reaches {operand : Walk Expr} {level : Level}
    (follows : Follows limit tokens ((Category.ofOperands level).calls + 1) calls operand
      (read limit (.ofOperands level)))
    {turns : Nat} {left : Expr} (levels : Nat)
    (stands : cursor.Stands limit tokens (depth + levels) rest)
    (all : depth + levels + room = limit)
    (enough : Enough room rest ((Category.ofOperands level).calls + 1) calls)
    (last : rest.length < turns) :
    Reaches limit tokens depth (chainLoop limit tokens operand level turns left levels) cursor
      (resume limit (.chain level) room left rest) := by
  induction turns generalizing cursor levels room rest left with
  | zero => contradiction
  | succ turns ih =>
      rw [chainLoop, resume]
      refine reaches_peek stands ?_
      cases rest with
      | nil =>
          rw [plain_chainRest_nil]
          exact reaches_ascend stands (by omega)
      | cons next tail =>
          simp only [List.head?_cons, Option.bind_some]
          cases found : level.operator? next.token with
          | none =>
              rw [plain_chainRest_stop found]
              exact reaches_ascend stands (by omega)
          | some op =>
              rw [plain_chainRest_operator found]
              refine reaches_open stands all fun {lower after} isLower stands => ?_
              subst isLower
              have enough := enough.deeper.nearer (Nat.le_add_right _ _)
              rw [plain_operand]
              refine (follows stands (by omega) enough).andThen ?_
              intro right rest' after done stands
              have shorter := read_shorter done
              -- the step of this turn is one more that the loop gives back at its end
              exact ih (levels + 1) stands (by omega) (enough.later shorter)
                (shorter.trans (Nat.lt_of_succ_lt_succ last))

theorem appliedLoop_reaches {index : Walk Expr} {list : Walk (List Expr)}
    (follows : Follows limit tokens Category.whole.calls calls index (read limit .whole))
    (lists : Follows limit tokens 14 calls list fun room rest =>
      plain (Parser.arguments limit room rest))
    {turns : Nat} {target : Expr} (levels : Nat)
    (stands : cursor.Stands limit tokens (depth + levels) rest)
    (all : depth + levels + room = limit) (enough : Enough room rest 1 calls)
    (last : rest.length < turns) :
    Reaches limit tokens depth (appliedLoop limit tokens index list turns target levels) cursor
      (resume limit .applied room target rest) := by
  induction turns generalizing cursor levels room rest target with
  | zero => contradiction
  | succ turns ih =>
      rw [appliedLoop, resume]
      refine reaches_peek stands ?_
      cases rest with
      | nil =>
          rw [plain_appliedRest_nil]
          exact reaches_ascend stands (by omega)
      | cons next tail =>
          have last : tail.length < turns := Nat.lt_of_succ_lt_succ last
          simp only [List.head?_cons, Option.map_some]
          by_cases dot : next.token = .mark .dot
          · rw [plain_appliedRest_member dot]
            simp only [dot]
            refine reaches_open stands all fun {lower after} isLower stands => ?_
            subst isLower
            have enough := enough.deeper.nearer (Nat.le_add_right _ _)
            refine (reaches_expect stands).andThen ?_
            intro name rest' after done stands
            have shorter := plain_shorter done
            exact ih (levels + 1) stands (by omega) (enough.later shorter) (shorter.trans last)
          by_cases opens : next.token = .mark .openBracket
          · rw [plain_appliedRest_index opens]
            simp only [opens]
            refine reaches_open stands all fun {lower after} isLower stands => ?_
            subst isLower
            have enough := enough.deeper
            refine (follows stands (by omega) (enough.nearer (by decide))).andThen ?_
            intro position rest' after done stands
            refine (reaches_expect stands).andThen ?_
            intro close rest'' after closed stands
            have shorter := (plain_shorter closed).trans (read_shorter done)
            exact ih (levels + 1) stands (by omega) ((enough.later shorter).nearer (by decide))
              (shorter.trans last)
          by_cases call : next.token = .mark .openParen
          · rw [plain_appliedRest_call call]
            simp only [call]
            refine reaches_open stands all fun {lower after} isLower stands => ?_
            subst isLower
            have enough := enough.deeper
            refine (lists stands (by omega) enough).andThen ?_
            intro args rest' after done stands
            have shorter := plain_shorter done
            exact ih (levels + 1) stands (by omega) ((enough.later shorter).nearer (by decide))
              (shorter.trans last)
          · rw [plain_appliedRest_stop dot opens call]
            split
            · rename_i isDot
              exact absurd (Option.some.inj isDot) dot
            · rename_i isOpen
              exact absurd (Option.some.inj isOpen) opens
            · rename_i isCall
              exact absurd (Option.some.inj isCall) call
            · exact reaches_ascend stands (by omega)

theorem argumentLoop_reaches {item : Walk Expr}
    (follows : Follows limit tokens Category.whole.calls calls item (read limit .whole))
    {turns : Nat} (args : List Expr) (stands : cursor.Stands limit tokens depth rest)
    (all : depth + room = limit) (enough : Enough room rest Category.whole.calls calls)
    (last : rest.length < turns) :
    Reaches limit tokens depth (argumentLoop tokens item turns args) cursor
      ((plain (someArguments limit room rest)).map fun more => (args ++ more.1, more.2)) := by
  induction turns generalizing cursor rest args with
  | zero => contradiction
  | succ turns ih =>
      rw [argumentLoop, plain_someArguments, map_bind]
      refine (follows stands all enough).andThen ?_
      intro arg rest' after done stands
      have shorter := read_shorter done
      refine reaches_remaining stands ?_
      cases rest' with
      | nil => exact reaches_advance_nil stands
      | cons next tail =>
          refine reaches_advance stands fun passed => ?_
          obtain ⟨token, text, start⟩ := next
          cases token with
          | mark symbol =>
              cases symbol with
              | comma =>
                  have fewer : tail.length < rest.length := Nat.lt_of_succ_lt shorter
                  have more := ih (args ++ [arg]) passed (enough.later fewer)
                    (Nat.lt_of_lt_of_le fewer (Nat.le_of_lt_succ last))
                  simpa only [map_map, List.append_assoc, List.singleton_append] using more
              | closeParen => exact reaches_pure passed
              | _ => exact reaches_refuse
          | _ => exact reaches_refuse

/-- Walks over a phrase of a category. -/
def phrase (limit : Nat) (tokens : List Lexeme) (calls : Nat) : Category → Walk Expr
  | .chain level => chain limit tokens calls level
  | .signed => unary limit tokens calls
  | .applied => applied limit tokens calls
  | .atom => atom limit tokens calls

theorem operand_succ {level : Level} : operand limit tokens (calls + 1) level =
    phrase limit tokens calls (.ofOperands level) := by
  rw [operand]
  cases level <;> rfl

mutual

theorem phrase_follows (calls : Nat) (category : Category) : Follows limit tokens category.calls
    calls (phrase limit tokens calls category) (read limit category) := by
  intro cursor depth room rest stands all enough
  cases category with
  | chain level =>
      rw [Category.calls_chain] at enough
      obtain ⟨calls, rfl, still⟩ := enough.call
      rw [phrase, chain, read_chain]
      refine (operand_follows calls level stands all still).andThen ?_
      intro first rest' after done stands
      refine reaches_remaining stands ?_
      exact chainLoop_reaches (operand_follows calls level) 0 stands all
        (still.later (read_shorter done)) (Nat.lt_succ_self _)
  | signed =>
      obtain ⟨calls, rfl, still⟩ := enough.call
      rw [phrase, unary]
      refine reaches_peek stands ?_
      cases rest with
      | nil =>
          rw [read_nil, ← read_nil .applied]
          exact phrase_follows calls .applied stands all still
      | cons next tail =>
          by_cases signed : ∃ build, Signs next.token build
          · obtain ⟨build, sign⟩ := signed
            rw [read, plain_unary_sign sign]
            rcases sign with ⟨token, rfl⟩ | ⟨token, rfl⟩
            all_goals
              simp only [List.head?_cons, Option.map_some, token]
              refine reaches_open stands all fun {lower after} isLower stands => ?_
              subst isLower
              have enough : Enough lower tail Category.signed.calls calls :=
                still.deeper.nearer (by decide)
              rw [map_eq_bind]
              refine (phrase_follows calls .signed stands (by omega) enough).andThen ?_
              intro inner rest' after done stands
              exact reaches_ascend stands (by omega)
          · have noNot : next.token ≠ .mark .bang := fun token => signed ⟨_, .inl ⟨token, rfl⟩⟩
            have noMinus : next.token ≠ .mark .minus := fun token => signed ⟨_, .inr ⟨token, rfl⟩⟩
            rw [read, plain_unary_applied noNot noMinus]
            simp only [List.head?_cons, Option.map_some]
            split
            · rename_i isNot
              exact absurd (Option.some.inj isNot) noNot
            · rename_i isMinus
              exact absurd (Option.some.inj isMinus) noMinus
            · exact phrase_follows calls .applied stands all still
  | applied =>
      obtain ⟨calls, rfl, still⟩ := enough.call
      rw [phrase, applied, read_applied]
      refine (phrase_follows calls .atom stands all still).andThen ?_
      intro first rest' after done stands
      refine reaches_remaining stands ?_
      exact appliedLoop_reaches (phrase_follows calls .whole) (arguments_follows calls) 0 stands all
        (still.later (read_shorter done)) (Nat.lt_succ_self _)
  | atom =>
      obtain ⟨calls, rfl, still⟩ := enough.call
      rw [phrase, atom]
      refine reaches_remaining stands ?_
      cases rest with
      | nil =>
          rw [read_nil]
          exact reaches_advance_nil stands
      | cons next tail =>
          refine reaches_advance stands fun passed => ?_
          rw [read, plain_atom]
          by_cases opens : next.token = .mark .openParen
          · simp only [opens]
            refine reaches_descend passed all fun {lower after} isLower stands => ?_
            subst isLower
            have enough := still.deeper
            refine (phrase_follows calls .whole stands (by omega) enough).andThen ?_
            intro inner rest' after done stands
            refine (reaches_expect stands).andThen ?_
            intro close rest'' after closed stands
            exact reaches_ascend stands (by omega)
          · obtain ⟨token, text, start⟩ := next
            cases token with
            | decimal | hex | scientific => exact reaches_withUnit passed
            | string | name => exact reaches_pure passed
            | mark symbol =>
                cases symbol with
                | openParen => contradiction
                | _ => exact reaches_refuse
termination_by calls

theorem operand_follows (calls : Nat) (level : Level) :
    Follows limit tokens ((Category.ofOperands level).calls + 1) calls
      (operand limit tokens calls level) (read limit (.ofOperands level)) := by
  intro cursor depth room rest stands all enough
  obtain ⟨calls, rfl, still⟩ := enough.call
  rw [operand_succ]
  exact phrase_follows calls (.ofOperands level) stands all still
termination_by calls

theorem arguments_follows (calls : Nat) :
    Follows limit tokens 14 calls (arguments limit tokens calls) fun room rest =>
      plain (Parser.arguments limit room rest) := by
  intro cursor depth room rest stands all enough
  obtain ⟨calls, rfl, still⟩ := enough.call
  change Reaches limit tokens depth _ cursor (plain (Parser.arguments limit room rest))
  rw [arguments]
  refine reaches_remaining stands ?_
  have some := argumentLoop_reaches (phrase_follows calls .whole) [] stands all still
    (Nat.lt_succ_self _)
  cases rest with
  | nil =>
      rw [plain_someArguments, ← read, read_nil] at some
      rw [plain_arguments_nil]
      exact some
  | cons next tail =>
      by_cases closes : next.token = .mark .closeParen
      · have closed : (next :: tail).head?.map Lexeme.token = Option.some (.mark .closeParen) :=
          congrArg Option.some closes
        rw [plain_arguments_close closes, if_pos closed]
        exact reaches_skip stands fun stands => reaches_pure stands
      · have goesOn : (next :: tail).head?.map Lexeme.token ≠ Option.some (.mark .closeParen) :=
          mt Option.some.inj closes
        have same : (fun more : List Expr × List Lexeme => ([] ++ more.1, more.2)) = id := rfl
        rw [plain_arguments_some closes, if_neg goesOn]
        rw [same, Except.map_id] at some
        exact some
termination_by calls

end

end

/-- From a place and a depth the walk ends as the reading does.  If it succeeds it has taken a
lexeme, it is as deep as before, and its counter was never above the limit. -/
def Balanced {α : Type} (limit : Nat) (tokens : List Lexeme) (pos depth : Nat) (walk : Walk α) :
    Except Refusal (α × List Lexeme) → Prop
  | .error refusal => walk.outcome? ⟨pos, depth, []⟩ = some (.error (.refused refusal))
  | .ok (value, rest) => ∃ after, walk.outcome? ⟨pos, depth, []⟩ = some (.ok (value, after)) ∧
      after.depth = depth ∧ pos < after.pos ∧ after.pos ≤ tokens.length ∧
      tokens.drop after.pos = rest ∧ ∀ passed ∈ after.past, passed ≤ limit

section

variable {α : Type} {limit pos depth : Nat} {tokens : List Lexeme} {walk : Walk α}

theorem Reaches.balanced {reading : Except Refusal (Taken α Lexeme (tokens.drop pos).length)}
    (reaches : Reaches limit tokens depth walk ⟨pos, depth, []⟩ (plain reading)) :
    Balanced limit tokens pos depth walk (plain reading) := by
  cases reading with
  | error refusal => exact reaches
  | ok taken =>
      obtain ⟨after, done, stands⟩ := reaches
      have shorter := taken.shorter
      rw [← stands.rest, List.length_drop, List.length_drop] at shorter
      exact ⟨after, done, stands.depth, by omega, stands.inside, stands.rest, stands.low⟩

/-- Every construct is read to its end or refused, and the counter of nesting steps is then where it
was.  How many nested calls suffice for that depends on the lexemes that are left, not on the
limit. -/
theorem constructs_balanced (limit pos depth calls : Nat) (tokens : List Lexeme)
    (inside : pos ≤ tokens.length) (low : depth ≤ limit)
    (enough : 13 * (tokens.length - pos) + 14 ≤ calls) :
    (∀ level, Balanced limit tokens pos depth (chain limit tokens calls level)
      (plain (Parser.chain limit level (limit - depth) (tokens.drop pos)))) ∧
    (∀ level, Balanced limit tokens pos depth (operand limit tokens calls level)
      (plain (Parser.operand limit level (limit - depth) (tokens.drop pos)))) ∧
    Balanced limit tokens pos depth (unary limit tokens calls)
      (plain (Parser.unary limit (limit - depth) (tokens.drop pos))) ∧
    Balanced limit tokens pos depth (applied limit tokens calls)
      (plain (Parser.applied limit (limit - depth) (tokens.drop pos))) ∧
    Balanced limit tokens pos depth (atom limit tokens calls)
      (plain (Parser.atom limit (limit - depth) (tokens.drop pos))) ∧
    Balanced limit tokens pos depth (arguments limit tokens calls)
      (plain (Parser.arguments limit (limit - depth) (tokens.drop pos))) := by
  have all : depth + (limit - depth) = limit := Nat.add_sub_of_le low
  have stands := Cursor.stands_at limit depth inside
  have enough : Enough (limit - depth) (tokens.drop pos) 14 calls := by
    rw [Enough, List.length_drop]
    omega
  have phrases (category : Category) := phrase_follows calls category stands all
    (enough.nearer (Nat.le_succ_of_le category.calls_le))
  have operands (level : Level) := operand_follows calls level stands all
    (enough.nearer (Nat.succ_le_succ (Category.calls_le _)))
  refine ⟨fun level => (phrases (.chain level)).balanced, fun level => ?_,
    (phrases .signed).balanced, (phrases .applied).balanced, (phrases .atom).balanced,
    (arguments_follows calls stands all enough).balanced⟩
  have reaches := operands level
  rw [← plain_operand] at reaches
  exact reaches.balanced

/-- Inside the parentheses of `(-1)` a signed operand is read at depth one. -/
theorem constructs_balanced_sign : ∃ tokens, lexemes "(-1)" = .ok tokens ∧
    Balanced 2 tokens 1 1 (unary 2 tokens 60) (.ok (.negate (.number "1"), tokens.drop 3)) := by
  have lexed : lexemes "(-1)" = .ok [⟨.mark .openParen, "(", 0⟩, ⟨.mark .minus, "-", 1⟩,
      ⟨.decimal, "1", 2⟩, ⟨.mark .closeParen, ")", 3⟩] := by cbv
  have done : plain (Parser.unary 2 1 [⟨.mark .minus, "-", 1⟩, ⟨.decimal, "1", 2⟩,
      ⟨.mark .closeParen, ")", 3⟩]) =
        .ok (.negate (.number "1"), [⟨.mark .closeParen, ")", 3⟩]) := by cbv
  refine ⟨_, lexed, ?_⟩
  have balanced := (constructs_balanced 2 1 1 60 [⟨.mark .openParen, "(", 0⟩,
    ⟨.mark .minus, "-", 1⟩, ⟨.decimal, "1", 2⟩, ⟨.mark .closeParen, ")", 3⟩]
    (by decide) (by decide) (by decide)).2.2.1
  exact done ▸ balanced

end

end Walk

end Parser

end EtherCalc
