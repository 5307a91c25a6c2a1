import EtherCalc.Proofs.Expr.Height
import EtherCalc.Proofs.Parser.RoundTrip
import Mathlib

/-!
How tall a tree a nesting limit admits.

The steps that a chain or the members, indices and calls after an atom take are given back when
the construct is complete.  So each of the six kinds of construct around an atom can take all the
steps there are and put as many levels on the tree, and a pair of parentheses starts anew with one
step less.  The height is quadratic in the limit, and for each limit there is a source that reaches
it.
-/

namespace EtherCalc

namespace Category

/-- How many kinds of construct lie between an atom and a phrase of the category, of those that can
put more than one level on a tree. -/
def layers : Category → Nat
  | .chain level => level.height + 2
  | .signed | .applied => 1
  | .atom => 0

/-- The greatest height of the trees of a category with a number of nesting steps left. -/
def ceiling (category : Category) (room : Nat) : Nat :=
  1 + 3 * (room * (room - 1)) + category.layers * room

variable {category : Category} {level : Level} {room : Nat}

theorem ceiling_succ :
    category.ceiling (room + 1) = category.ceiling room + 6 * room + category.layers := by
  cases room with
  | zero => simp [ceiling]
  | succ room =>
      simp only [ceiling, Nat.add_sub_cancel]
      ring

theorem ceiling_le_succ : category.ceiling room ≤ category.ceiling (room + 1) := by
  rw [ceiling_succ, Nat.add_assoc]
  exact Nat.le_add_right _ _

/-- A chain of operators puts a layer on its operands. -/
theorem ceiling_chain : (chain level).ceiling room = (ofOperands level).ceiling room + room := by
  have layers : (chain level).layers = (ofOperands level).layers + 1 := by cases level <;> rfl
  rw [ceiling, ceiling, layers]
  ring

theorem ceiling_applied : applied.ceiling room = atom.ceiling room + room := by
  simp [ceiling, layers]

/-- What is in parentheses has one step less. -/
theorem ceiling_group : atom.ceiling (room + 1) = whole.ceiling room := by
  rw [ceiling_succ, ceiling, ceiling]
  simp [layers, Level.height]

theorem one_le_ceiling : 1 ≤ category.ceiling room :=
  Nat.le_add_right_of_le (Nat.le_add_right _ _)

theorem ceiling_whole : whole.ceiling room = 1 + 3 * room * (room + 1) := by
  rw [← ceiling_group, ceiling, Nat.add_sub_cancel]
  simp only [layers, Nat.zero_mul, Nat.add_zero]
  ring

end Category

namespace Parser

variable {limit room : Nat} {tokens rest : List Lexeme} {left expr : Expr}

theorem suffixed_height {literal : Expr} (leaf : literal.height = 0)
    (done : suffixed literal tokens = (expr, rest)) : expr.height ≤ 1 := by
  unfold suffixed withUnit at done
  split at done
  · cases done
    exact Nat.le_succ_of_le (Nat.le_of_eq leaf)
  · split at done
    · cases done
      exact Nat.le_of_eq (congrArg (· + 1) leaf)
    · cases done
      exact Nat.le_succ_of_le (Nat.le_of_eq leaf)

theorem ofName_height (name : String) : (Expr.ofName name).height = 0 := by
  unfold Expr.ofName
  split <;> rfl

mutual

theorem read_height (limit : Nat) {room : Nat} (category : Category) {tokens rest : List Lexeme}
    {expr : Expr} (done : read limit category room tokens = .ok (expr, rest)) :
    expr.height ≤ category.ceiling room := by
  cases category with
  | chain level =>
      -- a loop that has read its first operand may still put `room` layers on it
      have tighter := Category.rank_ofOperands_lt level
      rw [read_chain, bind_eq_ok] at done
      obtain ⟨⟨first, middle⟩, readFirst, resumed⟩ := done
      have shorter := read_shorter readFirst
      have low := read_height limit (.ofOperands level) readFirst
      refine resume_height limit (.chain level) ?_ (Nat.le_refl _) resumed
      rw [Category.ceiling_chain]
      exact Nat.add_le_add_right low _
  | signed =>
      have tighter : Category.applied.rank < Category.signed.rank := by decide
      cases tokens with
      | nil =>
          rw [read, plain_unary_nil] at done
          contradiction
      | cons next tail =>
          by_cases signed : ∃ build, Signs next.token build
          · obtain ⟨build, sign⟩ := signed
            rw [read, plain_unary_sign sign, bind_eq_ok] at done
            obtain ⟨inner, descended, done⟩ := done
            obtain ⟨⟨operand, rest⟩, readOperand, same⟩ := map_eq_ok.mp done
            cases same
            have low := read_height limit .signed readOperand
            have layer : Category.signed.layers = 1 := rfl
            have grown : (build operand).height = operand.height + 1 := by
              rcases sign with ⟨_, rfl⟩ | ⟨_, rfl⟩ <;> rfl
            rw [descend_eq_ok.mp descended, Category.ceiling_succ, grown]
            omega
          · rw [read, plain_unary_applied (fun bang => signed ⟨_, .inl ⟨bang, rfl⟩⟩)
              (fun minus => signed ⟨_, .inr ⟨minus, rfl⟩⟩)] at done
            exact read_height limit .applied done
  | applied =>
      rw [read_applied, bind_eq_ok] at done
      obtain ⟨⟨first, middle⟩, readFirst, resumed⟩ := done
      have shorter := read_shorter readFirst
      have low := read_height limit .atom readFirst
      refine resume_height limit .applied ?_ (Nat.le_refl _) resumed
      rw [Category.ceiling_applied]
      exact Nat.add_le_add_right low _
  | atom =>
      cases tokens with
      | nil =>
          rw [read, plain_atom_nil] at done
          contradiction
      | cons next tail =>
          rw [read, plain_atom] at done
          split at done
          · exact (suffixed_height rfl (Except.ok.inj done)).trans Category.one_le_ceiling
          · exact (suffixed_height rfl (Except.ok.inj done)).trans Category.one_le_ceiling
          · exact (suffixed_height rfl (Except.ok.inj done)).trans Category.one_le_ceiling
          · cases done
            exact Nat.zero_le _
          · cases done
            rw [ofName_height]
            exact Nat.zero_le _
          · rw [bind_eq_ok] at done
            obtain ⟨inner, descended, done⟩ := done
            obtain ⟨⟨value, middle⟩, readInner, done⟩ := bind_eq_ok.mp done
            obtain ⟨⟨_, after⟩, closed, same⟩ := bind_eq_ok.mp done
            cases same
            rw [descend_eq_ok.mp descended, Category.ceiling_group]
            exact read_height limit .whole readInner
          · contradiction
termination_by (tokens.length, category.rank)
decreasing_by
  all_goals first
    | decreasing_tactic
    | (subst_vars; exact Prod.Lex.right _ (by decide))

/-- A loop takes a step for every level that it puts on the phrase in hand. -/
theorem resume_height (limit : Nat) {room bound : Nat} (category : Category)
    {tokens rest : List Lexeme} {left expr : Expr} (low : left.height + room ≤ bound)
    (fits : category.ceiling room ≤ bound)
    (done : resume limit category room left tokens = .ok (expr, rest)) : expr.height ≤ bound := by
  cases category with
  | chain level =>
      cases tokens with
      | nil =>
          rw [resume, plain_chainRest_nil] at done
          cases done
          omega
      | cons next tail =>
          cases found : level.operator? next.token with
          | none =>
              rw [resume, plain_chainRest_stop found] at done
              cases done
              omega
          | some op =>
              rw [resume, plain_chainRest_operator found, bind_eq_ok] at done
              obtain ⟨inner, descended, done⟩ := done
              obtain ⟨⟨right, middle⟩, readRight, resumed⟩ := bind_eq_ok.mp done
              rw [plain_operand] at readRight
              have shorter := read_shorter readRight
              have lowRight := read_height limit (.ofOperands level) readRight
              obtain rfl := descend_eq_ok.mp descended
              rw [Category.ceiling_chain, Category.ceiling_succ] at fits
              have grown : (Expr.binary op left right).height + inner ≤ bound := by
                rw [Expr.height]
                omega
              have fitsStill : (Category.chain level).ceiling inner ≤ bound := by
                rw [Category.ceiling_chain]
                omega
              exact resume_height limit (.chain level) grown fitsStill resumed
  | applied =>
      cases tokens with
      | nil =>
          rw [resume, plain_appliedRest_nil] at done
          cases done
          omega
      | cons next tail =>
          by_cases dot : next.token = .mark .dot
          · rw [resume, plain_appliedRest_member dot, bind_eq_ok] at done
            obtain ⟨inner, descended, done⟩ := done
            obtain ⟨⟨name, middle⟩, named, resumed⟩ := bind_eq_ok.mp done
            have shorter := plain_shorter named
            obtain rfl := descend_eq_ok.mp descended
            have fitsStill := Category.ceiling_le_succ.trans fits
            have grown : (Expr.member left name).height + inner ≤ bound := by
              rw [Expr.height]
              omega
            exact resume_height limit .applied grown fitsStill resumed
          by_cases opens : next.token = .mark .openBracket
          · rw [resume, plain_appliedRest_index opens, bind_eq_ok] at done
            obtain ⟨inner, descended, done⟩ := done
            obtain ⟨⟨position, middle⟩, readPosition, done⟩ := bind_eq_ok.mp done
            obtain ⟨⟨_, after⟩, closed, resumed⟩ := bind_eq_ok.mp done
            have shorter : after.length < tail.length :=
              (plain_shorter closed).trans (plain_shorter readPosition)
            have lowPosition := read_height limit .whole readPosition
            obtain rfl := descend_eq_ok.mp descended
            have fitsStill := Category.ceiling_le_succ.trans fits
            rw [Category.ceiling_applied, Category.ceiling_group] at fits
            have grown : (Expr.index left position).height + inner ≤ bound := by
              rw [Expr.height]
              omega
            exact resume_height limit .applied grown fitsStill resumed
          by_cases call : next.token = .mark .openParen
          · rw [resume, plain_appliedRest_call call, bind_eq_ok] at done
            obtain ⟨inner, descended, done⟩ := done
            obtain ⟨⟨args, middle⟩, readArgs, resumed⟩ := bind_eq_ok.mp done
            have shorter := plain_shorter readArgs
            have lowArgs : Expr.heightAll args ≤ Category.whole.ceiling inner := by
              cases tail with
              | nil =>
                  rw [plain_arguments_nil] at readArgs
                  contradiction
              | cons second tail =>
                  by_cases closes : second.token = .mark .closeParen
                  · rw [plain_arguments_close closes] at readArgs
                    cases readArgs
                    exact Nat.zero_le _
                  · rw [plain_arguments_some closes] at readArgs
                    exact someArguments_height limit readArgs
            obtain rfl := descend_eq_ok.mp descended
            have fitsStill := Category.ceiling_le_succ.trans fits
            rw [Category.ceiling_applied, Category.ceiling_group] at fits
            have grown : (Expr.call left args).height + inner ≤ bound := by
              rw [Expr.height]
              omega
            exact resume_height limit .applied grown fitsStill resumed
          · rw [resume, plain_appliedRest_stop dot opens call] at done
            cases done
            omega
  | signed | atom =>
      cases done
      omega
termination_by (tokens.length, 0)
decreasing_by
  all_goals subst_vars
  all_goals decreasing_tactic

theorem someArguments_height (limit : Nat) {room : Nat} {tokens rest : List Lexeme}
    {args : List Expr} (done : plain (someArguments limit room tokens) = .ok (args, rest)) :
    Expr.heightAll args ≤ Category.whole.ceiling room := by
  rw [plain_someArguments, bind_eq_ok] at done
  obtain ⟨⟨first, middle⟩, readFirst, done⟩ := done
  have shorter := plain_shorter readFirst
  have low := read_height limit .whole readFirst
  cases middle with
  | nil => contradiction
  | cons next tail =>
      have fewer : tail.length < tokens.length := Nat.lt_of_succ_lt shorter
      dsimp only at done
      split at done
      · obtain ⟨⟨others, rest⟩, readMore, same⟩ := map_eq_ok.mp done
        cases same
        exact Nat.max_le.mpr ⟨low, someArguments_height limit readMore⟩
      · cases done
        exact Nat.max_le.mpr ⟨low, Nat.zero_le _⟩
      · contradiction
termination_by (tokens.length, Category.whole.rank + 1)

end

theorem parse_height {source : String} (done : parse limit source = .ok expr) :
    expr.height ≤ 1 + 3 * limit * (limit + 1) := by
  obtain ⟨tokens, _, parsed⟩ := parse_eq_ok.mp done
  rw [← Category.ceiling_whole]
  exact read_height limit .whole (parseTokens_eq_ok.mp parsed)

/-- What is read as a phrase of one category is read as one of a looser category, if it has no sign
before it and what follows does not join it. -/
theorem read_widen {category wider : Category} {first : Lexeme}
    (done : read limit category room (first :: tokens) = .ok (expr, rest))
    (fits : category.rank ≤ wider.rank) (stops : Stops wider.rank rest)
    (unsigned : first.token ≠ .mark .bang ∧ first.token ≠ .mark .minus) :
    read limit wider room (first :: tokens) = .ok (expr, rest) := by
  rcases Nat.eq_or_lt_of_le fits with same | tighter
  · cases Category.rank_inj same
    exact done
  · cases wider with
    | atom => contradiction
    | applied =>
        have fits : category.rank ≤ Category.atom.rank := Nat.le_of_lt_succ tighter
        have inner := read_widen done fits (stops.mono (by decide)) unsigned
        rw [read_applied, inner]
        exact resume_stops stops
    | signed =>
        have fits : category.rank ≤ Category.applied.rank := Nat.le_of_lt_succ tighter
        have inner := read_widen done fits (stops.mono (by decide)) unsigned
        rw [read, plain_unary_applied unsigned.1 unsigned.2]
        exact inner
    | chain level =>
        have fits : category.rank ≤ (Category.ofOperands level).rank := by
          rw [Category.rank_ofOperands]
          exact Nat.le_of_lt_succ tighter
        have looser := Nat.le_of_lt (Category.rank_ofOperands_lt level)
        have inner := read_widen done fits (stops.mono looser) unsigned
        rw [read_chain, inner]
        exact resume_stops stops
termination_by wider.rank
decreasing_by
  all_goals subst_vars
  · exact Category.rank_ofOperands_lt _
  · decide
  · decide

/-- A literal is a phrase of every category and needs no step. -/
theorem read_literal {category : Category} {lexeme : Lexeme} {literal : Expr}
    (isNumber : NumberLiteral lexeme literal) (stops : Stops category.rank rest) :
    read limit category room (lexeme :: rest) = .ok (literal, rest) := by
  have done : read limit .atom room (lexeme :: rest) = .ok (literal, rest) := by
    rw [read_number isNumber, suffixed_stops literal (stops.mono (Nat.zero_le _))]
  refine read_widen done (Nat.zero_le _) stops ?_
  cases isNumber with
  | decimal token | hex token | scientific token => simp [token]

/-- The words are read as a phrase of the category wherever they stand before something that does
not join it, and the expression is its tree. -/
def ReadAs (limit room : Nat) (category : Category) (words : List String) (expr : Expr) : Prop :=
  ∀ tokens rest, Reads tokens words → Stops category.rank rest →
    read limit category room (tokens ++ rest) = .ok (expr, rest)

/-- A kind of construct that is read in a loop around phrases of an inner category: the words of
each turn take a step and put a level on the tree. -/
structure Layer (limit : Nat) (inner outer : Category) (turn : List String)
    (grow : Expr → Expr) : Prop where
  looser : inner.rank ≤ outer.rank
  loop : ∀ room tokens, read limit outer room tokens =
    (read limit inner room tokens).bind fun first => resume limit outer room first.1 first.2
  joins : ∀ {tokens rest}, Reads tokens turn → Stops inner.rank (tokens ++ rest)
  step : ∀ {room left tokens rest}, Reads tokens turn → Stops inner.rank rest →
    resume limit outer (room + 1) left (tokens ++ rest) = resume limit outer room (grow left) rest
  taller : ∀ expr, (grow expr).height = expr.height + 1

theorem one_spells : Token.decimal.Spells "1".toList :=
  ⟨by decide, List.all_eq_true.mp (by decide)⟩

theorem m_spells : Token.name.Spells "m".toList :=
  ⟨'m', [], rfl, by decide, nofun⟩

theorem member_layer : Layer limit .atom .applied [".", "m"] (.member · "m") where
  looser := by decide
  loop _ _ := read_applied
  joins reads := by
    obtain ⟨dot, _, rfl, token, _⟩ := reads.cons (.mark .dot) rfl
    exact .before token (by decide)
  step reads _ := by
    obtain ⟨dot, _, rfl, token, _, reads⟩ := reads.cons (.mark .dot) rfl
    obtain ⟨name, rfl, named, text⟩ := reads.single .name m_spells
    rw [List.cons_append, List.singleton_append, resume_member token named, text]
  taller _ := rfl

theorem operator_layer (op : Operator) :
    Layer limit (.ofOperands op.level) (.chain op.level) [op.symbol, "1"]
      (.binary op · (.number "1")) where
  looser := Nat.le_of_lt (Category.rank_ofOperands_lt _)
  loop _ _ := read_chain
  joins reads := by
    obtain ⟨sign, _, rfl, token, _⟩ := reads.cons (.mark op.mark) (by
      rw [Token.Spells, Operator.spelling_mark])
    refine .before token ?_
    rw [Operator.bond_mark, Category.rank_ofOperands]
    exact Nat.lt_succ_self _
  step reads stops := by
    obtain ⟨sign, _, rfl, token, _, reads⟩ := reads.cons (.mark op.mark) (by
      rw [Token.Spells, Operator.spelling_mark])
    obtain ⟨one, rfl, isDecimal, text⟩ := reads.single .decimal one_spells
    change resume limit _ _ _ (sign :: ([one] ++ _)) = _
    exact resume_operator token (read_literal (text ▸ .decimal isDecimal) stops)
  taller expr := by simp [Expr.height]

def repeated (count : Nat) (turn : List String) : List String :=
  (List.replicate count turn).flatten

section

variable {inner outer : Category} {turn words : List String} {grow : Expr → Expr}

theorem Layer.joins_repeated (layer : Layer limit inner outer turn grow) {count : Nat}
    (reads : Reads tokens (repeated count turn)) (stops : Stops outer.rank rest) :
    Stops inner.rank (tokens ++ rest) := by
  cases count with
  | zero =>
      cases reads.nil
      exact stops.mono layer.looser
  | succ count =>
      obtain ⟨first, more, rfl, readsTurn, _⟩ := reads.append
      rw [List.append_assoc]
      exact layer.joins readsTurn

theorem Layer.resume (layer : Layer limit inner outer turn grow) {count : Nat}
    (enough : count ≤ room) (reads : Reads tokens (repeated count turn))
    (stops : Stops outer.rank rest) :
    resume limit outer room left (tokens ++ rest) = .ok (grow^[count] left, rest) := by
  induction count generalizing room left tokens with
  | zero =>
      cases reads.nil
      exact resume_stops stops
  | succ count ih =>
      obtain ⟨first, more, rfl, readsTurn, reads⟩ := reads.append
      obtain ⟨room, rfl⟩ := Nat.exists_eq_succ_of_ne_zero (Nat.ne_zero_of_lt enough)
      rw [List.append_assoc, layer.step readsTurn (layer.joins_repeated reads stops),
        ih (Nat.le_of_succ_le_succ enough) reads, Function.iterate_succ_apply]

/-- A layer takes all the steps that there are. -/
theorem Layer.readAs (layer : Layer limit inner outer turn grow)
    (below : ReadAs limit room inner words expr) :
    ReadAs limit room outer (words ++ repeated room turn) (grow^[room] expr) := by
  intro tokens rest reads stops
  obtain ⟨first, more, rfl, readsFirst, reads⟩ := reads.append
  rw [List.append_assoc, layer.loop, below _ _ readsFirst (layer.joins_repeated reads stops)]
  exact layer.resume (Nat.le_refl _) reads stops

theorem Layer.height (layer : Layer limit inner outer turn grow) (count : Nat) (expr : Expr) :
    (grow^[count] expr).height = expr.height + count := by
  induction count with
  | zero => rfl
  | succ count ih => rw [Function.iterate_succ_apply', layer.taller, ih, Nat.add_assoc]

theorem ReadAs.group (inside : ReadAs limit room .whole words expr) :
    ReadAs limit (room + 1) .atom ("(" :: (words ++ [")"])) expr := by
  intro tokens rest reads stops
  obtain ⟨opening, _, rfl, opens, _, reads⟩ := reads.cons (.mark .openParen) rfl
  obtain ⟨phrase, _, rfl, readsInside, reads⟩ := reads.append
  obtain ⟨closing, rfl, closes, _⟩ := reads.single (.mark .closeParen) rfl
  rw [List.cons_append, List.append_assoc]
  exact read_group opens (inside _ _ readsInside (.before closes (by decide))) closes

theorem ReadAs.unsigned (below : ReadAs limit room .applied ("(" :: words) expr) :
    ReadAs limit room .signed ("(" :: words) expr := by
  intro tokens rest reads stops
  have done := below _ _ reads (stops.mono (by decide))
  obtain ⟨opening, _, rfl, opens, _⟩ := reads.cons (.mark .openParen) rfl
  exact read_widen done (by decide) stops (by simp [opens])

/-- The words of a source whose tree is as tall as so many nesting steps allow. -/
def tower : Nat → List String
  | 0 => ["1", "wei"]
  | room + 1 =>
      "(" :: (tower room ++ [")"]) ++ repeated (room + 1) [".", "m"] ++
        repeated (room + 1) ["*", "1"] ++ repeated (room + 1) ["+", "1"] ++
        repeated (room + 1) ["<", "1"] ++ repeated (room + 1) ["&&", "1"] ++
        repeated (room + 1) ["||", "1"]

theorem tower_readAs (limit room : Nat) :
    ∃ expr, ReadAs limit room .whole (tower room) expr ∧
      expr.height = Category.whole.ceiling room := by
  induction room with
  | zero =>
      refine ⟨.amount (.number "1") .wei, ?_, rfl⟩
      intro tokens rest reads stops
      obtain ⟨one, _, rfl, isDecimal, text, reads⟩ := reads.cons .decimal one_spells
      obtain ⟨word, rfl, named, isUnit⟩ := reads.single .name (Denomination.word_spells .wei)
      have isNumber : NumberLiteral one (.number "1") := text ▸ .decimal isDecimal
      have isWei : word.text = Denomination.wei.word := isUnit
      have done : read limit .atom 0 (one :: word :: rest) =
          .ok (.amount (.number "1") .wei, rest) := by
        rw [read_number isNumber, suffixed_unit _ named isWei]
      exact read_widen done (by decide) stops (by simp [isDecimal])
  | succ room ih =>
      obtain ⟨inside, readInside, height⟩ := ih
      have applied := (member_layer.readAs readInside.group).unsigned
      have product := (operator_layer .mul).readAs applied
      have sum := (operator_layer .add).readAs product
      have comparison := (operator_layer .lt).readAs sum
      have conjunction := (operator_layer .and).readAs comparison
      have disjunction := (operator_layer .or).readAs conjunction
      refine ⟨_, disjunction, ?_⟩
      simp only [(operator_layer _ : Layer limit _ _ _ _).height,
        (member_layer : Layer limit _ _ _ _).height]
      rw [height, Category.ceiling_whole, Category.ceiling_whole]
      ring

theorem readable_tower (room : Nat) : Lexer.Readable (tower room) := by
  have repeats {turn : List String} (readable : Lexer.Readable turn) (count : Nat) :
      Lexer.Readable (repeated count turn) := by
    intro word member
    obtain ⟨_, isTurn, member⟩ := List.mem_flatten.mp member
    exact readable word (List.eq_of_mem_replicate isTurn ▸ member)
  have one : Lexer.Readable ["1"] := .cons .decimal one_spells .nil
  have operator (op : Operator) : Lexer.Readable [op.symbol, "1"] :=
    .cons (.mark op.mark) (by rw [Token.Spells, Operator.spelling_mark]) one
  induction room with
  | zero => exact .cons .decimal one_spells (.cons .name (Denomination.word_spells .wei) .nil)
  | succ room ih =>
      have group : Lexer.Readable ("(" :: (tower room ++ [")"])) :=
        .cons (.mark .openParen) rfl (ih.append (.cons (.mark .closeParen) rfl .nil))
      have members : Lexer.Readable [".", "m"] := .cons (.mark .dot) rfl (.cons .name m_spells .nil)
      exact (((((group.append (repeats members _)).append (repeats (operator .mul) _)).append
        (repeats (operator .add) _)).append (repeats (operator .lt) _)).append
        (repeats (operator .and) _)).append (repeats (operator .or) _)

/-- The tower of a limit is parsed under that limit, and its tree has the greatest height. -/
theorem parse_tower (limit : Nat) :
    ∃ expr, parse limit (String.ofList (Lexer.spread (tower limit))) = .ok expr ∧
      expr.height = 1 + 3 * limit * (limit + 1) := by
  obtain ⟨expr, readAs, height⟩ := tower_readAs limit limit
  have spaced : Lexer.Spaced (tower limit)
      (String.ofList (Lexer.spread (tower limit))).toList := by
    rw [String.toList_ofList]
    exact Lexer.spaced_spread _
  obtain ⟨tokens, lexed, texts⟩ := lexemes_of_spaced spaced (readable_tower limit)
  have done := readAs tokens [] ⟨texts, lexemes_spelled lexed⟩ trivial
  rw [List.append_nil] at done
  exact ⟨expr, parse_eq_ok.mpr ⟨tokens, lexed, parseTokens_eq_ok.mpr done⟩,
    height.trans Category.ceiling_whole⟩

end

/-- No tree that the parser returns is taller than the limit allows, and under each limit it returns
one that is as tall. -/
theorem parse_depth_tight (limit : Nat) :
    (∀ source expr, parse limit source = .ok expr → expr.depth ≤ 1 + 3 * limit * (limit + 1)) ∧
      ∃ source expr, parse limit source = .ok expr ∧
        expr.depth = 1 + 3 * limit * (limit + 1) := by
  constructor
  · intro source expr done
    rw [Expr.depth_eq_height]
    exact parse_height done
  · obtain ⟨expr, done, height⟩ := parse_tower limit
    exact ⟨_, expr, done, expr.depth_eq_height.trans height⟩

/-- One step of nesting allows a height of seven. -/
theorem parse_depth_tight_one :
    ∃ expr, parse 1 "(1 wei).m*1+1<1&&1||1" = .ok expr ∧ expr.depth ≤ 7 := by
  have done : parse 1 "(1 wei).m*1+1<1&&1||1" = .ok
      (.binary .or (.binary .and (.binary .lt (.binary .add (.binary .mul
        (.member (.amount (.number "1") .wei) "m") (.number "1")) (.number "1")) (.number "1"))
        (.number "1")) (.number "1")) := by cbv
  exact ⟨_, done, (parse_depth_tight 1).1 _ _ done⟩

end Parser

end EtherCalc
