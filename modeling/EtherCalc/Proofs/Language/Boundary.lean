import EtherCalc.Proofs.Language.Derivation

/-!
How a phrase begins, and what may stand after it.

A reader that looks one token ahead must know from that token whether the phrase goes on.
`Token.bond` says how tightly a token would join what stands before it to something more, on the
scale of `Category.rank`; a phrase is complete before a token of a looser bond.
-/

namespace EtherCalc

def Token.opensAtom : Token → Bool
  | .hex | .scientific | .decimal | .string | .name | .mark .openParen => true
  | _ => false

def Category.opens : Category → Token → Bool
  | .applied, token | .atom, token => token.opensAtom
  | .chain _, token | .signed, token =>
      token.opensAtom || token == .mark .bang || token == .mark .minus

/-- The categories from the tightest to the loosest. -/
def Category.rank : Category → Nat
  | .atom => 0
  | .applied => 1
  | .signed => 2
  | .chain level => level.height + 3

/-- The rank of the phrases that a token could make longer; a name makes an amount of a number. -/
def Token.bond : Token → Nat
  | .name => 0
  | .mark .dot | .mark .openBracket | .mark .openParen => 1
  | .mark .star | .mark .slash => 3
  | .mark .plus | .mark .minus => 4
  | .mark .equal | .mark .notEqual | .mark .less | .mark .lessEqual | .mark .greater
  | .mark .greaterEqual => 5
  | .mark .andAnd => 6
  | .mark .orOr => 7
  | _ => 8

/-- What follows does not make a phrase of the rank longer. -/
def Stops (rank : Nat) : List Lexeme → Prop
  | [] => True
  | next :: _ => rank < next.token.bond

theorem Stops.mono {smaller rank : Nat} {rest : List Lexeme} (stops : Stops rank rest)
    (le : smaller ≤ rank) : Stops smaller rest := by
  cases rest with
  | nil => trivial
  | cons next rest => exact Nat.lt_of_le_of_lt le stops

theorem Stops.before {rank : Nat} {next : Lexeme} {rest : List Lexeme} {token : Token}
    (found : next.token = token) (looser : rank < token.bond) : Stops rank (next :: rest) := by
  rw [Stops, found]
  exact looser

/-- A token that joins the phrase does not follow it. -/
theorem Stops.other {rank : Nat} {next : Lexeme} {rest : List Lexeme} {token : Token}
    (stops : Stops rank (next :: rest)) (joins : token.bond ≤ rank) : next.token ≠ token := by
  rintro rfl
  exact absurd stops (Nat.not_lt_of_le joins)

theorem Category.rank_ofOperands (level : Level) :
    (Category.ofOperands level).rank = level.height + 2 := by
  cases level <;> rfl

theorem Category.rank_ofOperands_lt (level : Level) :
    (Category.ofOperands level).rank < (Category.chain level).rank := by
  cases level <;> decide

theorem Category.rank_le_whole (category : Category) : category.rank ≤ Category.whole.rank := by
  cases category with
  | chain level => cases level <;> decide
  | signed | applied | atom => decide

theorem Operator.bond_mark (op : Operator) : (Token.mark op.mark).bond = op.level.height + 3 := by
  cases op <;> rfl

theorem Category.rank_inj {category other : Category} (same : category.rank = other.rank) :
    category = other := by
  cases category with
  | chain level =>
      cases other with
      | chain level' => cases level <;> cases level' <;> first | rfl | contradiction
      | _ => cases level <;> contradiction
  | _ =>
      cases other with
      | chain level => cases level <;> contradiction
      | _ => first | rfl | contradiction

/-- A phrase of a category is one of every looser category too. -/
theorem Derives.widen {category wider : Category} {phrase : List Lexeme} {expr : Expr}
    (derives : Derives category phrase expr) (fits : category.rank ≤ wider.rank) :
    Derives wider phrase expr := by
  rcases Nat.eq_or_lt_of_le fits with same | tighter
  · cases Category.rank_inj same
    exact derives
  · cases wider with
    | atom => contradiction
    | applied => exact .bare (derives.widen (Nat.le_of_lt_succ tighter))
    | signed => exact .unsigned (derives.widen (Nat.le_of_lt_succ tighter))
    | chain level =>
        refine .operand (derives.widen ?_)
        rw [Category.rank_ofOperands]
        exact Nat.le_of_lt_succ tighter
termination_by wider.rank
decreasing_by
  all_goals subst_vars
  · exact Category.rank_ofOperands_lt _
  · decide
  · decide

theorem Derives.head {category : Category} {phrase : List Lexeme} {expr : Expr} :
    Derives category phrase expr →
      ∃ first rest, phrase = first :: rest ∧ category.opens first.token = true
  | @Derives.operand level _ _ inner => by
      obtain ⟨first, rest, rfl, opens⟩ := inner.head
      refine ⟨first, rest, rfl, ?_⟩
      cases level <;> exact opens
  | .binary first _ _ => by
      obtain ⟨lexeme, rest, rfl, opens⟩ := first.head
      exact ⟨lexeme, _, rfl, opens⟩
  | .unsigned inner => by
      obtain ⟨first, rest, rfl, opens⟩ := inner.head
      have opens : first.token.opensAtom = true := opens
      exact ⟨first, rest, rfl, by simp only [Category.opens, opens, Bool.true_or]⟩
  | .not token _ | .negate token _ => ⟨_, _, rfl, by rw [token]; decide⟩
  | .bare inner => inner.head
  | .member inner _ _ | .index inner _ _ _ | .call inner _ _ | .callWith inner _ _ _ => by
      obtain ⟨first, rest, rfl, opens⟩ := inner.head
      exact ⟨first, _, rfl, opens⟩
  | .number isNumber | .amount isNumber _ _ => by
      refine ⟨_, _, rfl, ?_⟩
      cases isNumber with
      | decimal token | hex token | scientific token => rw [token]; decide
  | .string token | .bool token _ | .variable token _ | .group token _ _ =>
      ⟨_, _, rfl, by rw [token]; decide⟩

/-- No phrase begins with a closing parenthesis, so a list of arguments shows whether it is
empty. -/
theorem Derives.not_closed {category : Category} {closing : Lexeme} {rest : List Lexeme}
    {expr : Expr} (derives : Derives category (closing :: rest) expr) :
    closing.token ≠ .mark .closeParen := by
  obtain ⟨first, _, same, opens⟩ := derives.head
  cases same
  intro token
  rw [token] at opens
  cases category <;> contradiction

theorem DerivesArguments.head {phrase : List Lexeme} {args : List Expr}
    (derives : DerivesArguments phrase args) :
    ∃ first rest, phrase = first :: rest ∧ first.token ≠ .mark .closeParen := by
  cases derives with
  | one only =>
      obtain ⟨first, rest, rfl, _⟩ := only.head
      exact ⟨first, rest, rfl, only.not_closed⟩
  | more derives token rest =>
      obtain ⟨first, _, rfl, _⟩ := derives.head
      exact ⟨first, _, rfl, derives.not_closed⟩

/-- A sign before a phrase is not taken for a part of it. -/
theorem Derives.not_signed {first : Lexeme} {rest : List Lexeme} {expr : Expr}
    (derives : Derives .applied (first :: rest) expr) :
    first.token ≠ .mark .bang ∧ first.token ≠ .mark .minus := by
  obtain ⟨_, _, same, opens⟩ := derives.head
  cases same
  constructor <;> intro token <;> rw [token] at opens <;> contradiction

end EtherCalc
