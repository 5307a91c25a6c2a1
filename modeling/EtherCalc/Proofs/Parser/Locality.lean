import EtherCalc.Proofs.Parser.Completeness
import EtherCalc.Proofs.Parser.Reading

namespace EtherCalc.Parser

namespace Reader

def phrase (category : Category) : Reader Expr :=
  fun limit => read limit category

def resuming (category : Category) (expr : Expr) : Reader Expr :=
  fun limit room => resume limit category room expr

def expecting (wanted : Token) : Reader String :=
  fun _ _ tokens => plain (expect wanted tokens)

/-- Reads on to a closing lexeme, which it takes too. -/
def enclosed {α : Type} (inside : Reader α) (wanted : Token) : Reader α :=
  inside.andThen fun value => (expecting wanted).andThen fun _ => .pure value

def arguments : Reader (List Expr) :=
  fun limit room tokens => plain (Parser.arguments limit room tokens)

def someArguments : Reader (List Expr) :=
  fun limit room tokens => plain (Parser.someArguments limit room tokens)

/-- After an argument: more of them after a comma, or the end. -/
def separated (first : Expr) : Reader (List Expr) := fun limit room tokens =>
  match tokens with
  | [] => .error ⟨.endOfInput, []⟩
  | next :: rest =>
      match next.token with
      | .mark .comma => (someArguments limit room rest).map fun more => (first :: more.1, more.2)
      | .mark .closeParen => .ok ([first], rest)
      | found => .error ⟨.unseparated found, next :: rest⟩

theorem someArguments_eq : someArguments = (phrase .whole).andThen separated := by
  funext limit room tokens
  rw [someArguments, plain_someArguments]
  rfl

theorem chain_eq (level : Level) : phrase (.chain level) =
    (phrase (.ofOperands level)).andThen (resuming (.chain level)) := by
  funext limit room tokens
  exact read_chain

theorem applied_eq : phrase .applied = (phrase .atom).andThen (resuming .applied) := by
  funext limit room tokens
  exact read_applied

section

variable {limit room : Nat} {lead : Lexeme} {rest : List Lexeme} {target : Expr}

theorem phrase_group (opens : lead.token = .mark .openParen) :
    phrase .atom limit room (lead :: rest) = (descend limit room rest).bind fun room =>
      enclosed (phrase .whole) (.mark .closeParen) limit room rest := by
  rw [phrase, read, plain_atom, opens]
  rfl

theorem resuming_operator {level : Level} {op : Operator}
    (found : level.operator? lead.token = some op) :
    resuming (.chain level) target limit room (lead :: rest) =
      (descend limit room rest).bind fun room =>
        ((phrase (.ofOperands level)).andThen fun right =>
          resuming (.chain level) (.binary op target right)) limit room rest := by
  rw [resuming, resume, plain_chainRest_operator found]
  simp only [plain_operand]
  rfl

theorem resuming_member (token : lead.token = .mark .dot) :
    resuming .applied target limit room (lead :: rest) =
      (descend limit room rest).bind fun room =>
        ((expecting .name).andThen fun name => resuming .applied (.member target name))
          limit room rest :=
  plain_appliedRest_member token

theorem resuming_index (opens : lead.token = .mark .openBracket) :
    resuming .applied target limit room (lead :: rest) =
      (descend limit room rest).bind fun room =>
        ((enclosed (phrase .whole) (.mark .closeBracket)).andThen fun position =>
          resuming .applied (.index target position)) limit room rest := by
  simp only [enclosed, andThen_assoc]
  exact plain_appliedRest_index opens

theorem resuming_call (opens : lead.token = .mark .openParen) :
    resuming .applied target limit room (lead :: rest) =
      (descend limit room rest).bind fun room =>
        (arguments.andThen fun args => resuming .applied (.call target args)) limit room rest :=
  plain_appliedRest_call opens

end

end Reader

open Reader (expecting enclosed separated)

/-- A name, which is a phrase of every category. -/
def someName : Lexeme :=
  ⟨.name, "x", 0⟩

theorem someName_spells : someName.token.Spells someName.text.toList :=
  ⟨'x', [], by simp [someName], by decide, nofun⟩

def closingLexeme (symbol : Mark) : Lexeme :=
  ⟨.mark symbol, symbol.spelling, 0⟩

theorem spelled_singleton {lexeme : Lexeme} (spells : lexeme.token.Spells lexeme.text.toList) :
    Spelled [lexeme] := by
  intro other member
  cases List.mem_singleton.mp member
  exact spells

section

variable {α : Type} {limit room rank : Nat} {lead : Lexeme} {tokens after rest : List Lexeme}

theorem word_eq_iff {lead' : Lexeme} :
    lead'.word = lead.word ↔ lead'.token = lead.token ∧ lead'.text = lead.text := by
  simp [Lexeme.word]

/-- A name before what stops a phrase is read as the phrase. -/
theorem read_someName (category : Category) (stops : Stops category.rank after) :
    read limit category room (someName :: after) = .ok (.ofName "x", after) := by
  cases category with
  | atom => exact read_name rfl
  | applied =>
      rw [read_applied, read_name rfl]
      exact resume_stops stops
  | signed =>
      have inner : read limit .applied room (someName :: after) = .ok (.ofName "x", after) :=
        read_someName .applied (stops.mono (by decide))
      rw [read, plain_unary_applied (by decide) (by decide)]
      exact inner
  | chain level =>
      have tighter := Category.rank_ofOperands_lt level
      rw [read_chain, read_someName (.ofOperands level) (stops.mono (Nat.le_of_lt tighter))]
      exact resume_stops stops
termination_by category.rank
decreasing_by
  all_goals first
    | decreasing_tactic
    | (subst_vars; decide)

theorem completes_someName (category : Category) :
    Completes (.phrase category) category.rank limit room [] tokens := by
  refine ⟨[someName], spelled_singleton someName_spells, fun _ => List.cons_ne_nil _ _, ?_⟩
  intro after stops
  exact ⟨_, read_someName category stops⟩

theorem expecting_reading (wanted : Lexeme) (spells : wanted.token.Spells wanted.text.toList) :
    Reading (expecting wanted.token) rank limit room tokens := by
  have completes : Completes (expecting wanted.token) rank limit room [] tokens := by
    refine ⟨[wanted], spelled_singleton spells, fun _ => List.cons_ne_nil _ _, ?_⟩
    exact fun after _ => ⟨_, expect_found rfl⟩
  cases tokens with
  | nil =>
      refine .refuse .endOfInput rfl ?_ completes
      intro limit room rest alike
      rw [beginAlike_nil alike, expecting, plain_expect]
  | cons lead tokens =>
      by_cases found : lead.token = wanted.token
      · refine .take (.pure lead.text) ?_ .pure
        intro limit room lead' rest word
        obtain ⟨token, text⟩ := word_eq_iff.mp word
        rw [expecting, expect_found (token.trans found), text]
        rfl
      · refine .refuse (.expected wanted.token lead.token) rfl ?_ completes
        intro limit room rest alike
        obtain ⟨lead', rest, rfl, word⟩ := beginAlike_cons alike
        obtain ⟨token, _⟩ := word_eq_iff.mp word
        rw [expecting, plain_expect]
        simp only [token, if_neg found]

theorem enclosed_shorter {inside : Reader α} {wanted : Token} {value : α}
    (shorter : ∀ {value rest}, inside limit room tokens = .ok (value, rest) →
      rest.length < tokens.length)
    (done : enclosed inside wanted limit room tokens = .ok (value, rest)) :
    rest.length < tokens.length := by
  obtain ⟨⟨_, middle⟩, readInside, done⟩ := bind_eq_ok.mp done
  obtain ⟨⟨_, after⟩, taken, same⟩ := bind_eq_ok.mp done
  cases same
  exact Nat.lt_trans (plain_shorter taken) (shorter readInside)

theorem enclosed_reading {inside : Reader α} {before : Nat} {symbol : Mark}
    (reading : Reading inside before limit room tokens) (looser : before < (Token.mark symbol).bond) :
    Reading (enclosed inside (.mark symbol)) rank limit room tokens := by
  have closes {value : α} {after : List Lexeme} :
      ((expecting (.mark symbol)).andThen fun _ => .pure value) limit room
        (closingLexeme symbol :: after) = .ok (value, after) := by
    have isSymbol : (closingLexeme symbol).token = .mark symbol := rfl
    rw [Reader.andThen, expecting, expect_found isSymbol]
    rfl
  refine reading.thenTake (closingLexeme symbol) rfl looser
    (fun value after => ⟨_, closes⟩) ?_ fun _ => ?_
  · intro value rest last rest' done
    obtain ⟨⟨_, middle⟩, taken, same⟩ := bind_eq_ok.mp done
    cases same
    exact plain_shorter taken
  · exact (expecting_reading (closingLexeme symbol) rfl).thenMore (Nat.le_refl rank)
      (fun _ _ _ => ⟨_, rfl⟩) fun _ => .pure

theorem suffixed_stop {literal : Expr}
    (noUnit : ¬ (lead.token = .name ∧ ∃ unit : Denomination, lead.text = unit.word)) :
    suffixed literal (lead :: rest) = (literal, lead :: rest) := by
  by_cases named : lead.token = .name
  · have none : Denomination.ofWord? lead.text = none := by
      cases found : Denomination.ofWord? lead.text with
      | none => rfl
      | some unit => exact absurd ⟨named, unit, Denomination.ofWord?_eq_some_iff.mp found⟩ noUnit
    simp only [suffixed, withUnit, if_pos named, none]
  · simp only [suffixed, withUnit, if_neg named]

/-- A literal takes the word after it if that is a denomination. -/
theorem suffixed_reading (literal : Expr) :
    Reading (fun _ _ tokens => .ok (suffixed literal tokens)) 0 limit room tokens := by
  cases tokens with
  | nil =>
      refine .stop literal fun _ _ rest follow => ?_
      rcases follow with alike | stops
      · rw [beginAlike_nil alike]
        rfl
      · rw [suffixed_stops literal stops]
  | cons lead tokens =>
      by_cases unit : lead.token = .name ∧ ∃ unit : Denomination, lead.text = unit.word
      · obtain ⟨named, unit, isUnit⟩ := unit
        refine .take (.pure (.amount literal unit)) ?_ .pure
        intro limit room lead' rest word
        obtain ⟨token, text⟩ := word_eq_iff.mp word
        rw [suffixed_unit literal (token.trans named) (text.trans isUnit)]
        rfl
      · refine .stop literal fun _ _ rest follow => ?_
        rcases follow with alike | stops
        · obtain ⟨lead', rest, rfl, word⟩ := beginAlike_cons alike
          obtain ⟨token, text⟩ := word_eq_iff.mp word
          rw [suffixed_stop (by rwa [token, text])]
        · rw [suffixed_stops literal stops]

theorem separated_shorter {first : Expr} {args : List Expr}
    (done : separated first limit room tokens = .ok (args, rest)) : rest.length < tokens.length := by
  cases tokens with
  | nil => contradiction
  | cons next tokens =>
      simp only [separated] at done
      split at done
      · obtain ⟨⟨more, left⟩, readMore, same⟩ := map_eq_ok.mp done
        cases same
        exact Nat.lt_succ_of_lt (plain_shorter readMore)
      · cases done
        exact Nat.lt_succ_self _
      · contradiction

theorem separated_reading {first : Expr}
    (reading : ∀ {rest : List Lexeme}, rest.length < tokens.length →
      Reading .someArguments rank limit room rest) :
    Reading (separated first) rank limit room tokens := by
  have completes : Completes (separated first) rank limit room [] tokens := by
    refine ⟨[closingLexeme .closeParen], spelled_singleton rfl, fun _ => List.cons_ne_nil _ _, ?_⟩
    exact fun after _ => ⟨[first], rfl⟩
  cases tokens with
  | nil =>
      refine .refuse .endOfInput rfl (fun limit room rest alike => ?_) completes
      rw [beginAlike_nil alike, separated]
  | cons next tokens =>
      by_cases comma : next.token = .mark .comma
      · refine .take (Reader.someArguments.andThen fun more => .pure (first :: more)) ?_ ?_
        · intro limit room lead rest word
          obtain ⟨token, _⟩ := word_eq_iff.mp word
          simp only [separated, token, comma, Reader.andThen]
          cases Reader.someArguments limit room rest <;> rfl
        · exact (reading (Nat.lt_succ_self _)).thenMore (Nat.le_refl rank)
            (fun _ _ _ => ⟨_, rfl⟩) fun _ => .pure
      · by_cases closes : next.token = .mark .closeParen
        · refine .take (.pure [first]) ?_ .pure
          intro limit room lead rest word
          obtain ⟨token, _⟩ := word_eq_iff.mp word
          simp only [separated, token, closes]
          rfl
        · refine .refuse (.unseparated next.token) rfl (fun limit room rest alike => ?_) completes
          obtain ⟨lead, rest, rfl, word⟩ := beginAlike_cons alike
          obtain ⟨token, _⟩ := word_eq_iff.mp word
          simp only [separated, token]

theorem arguments_reading
    (reading : ∀ {rest : List Lexeme}, rest.length ≤ tokens.length →
      Reading .someArguments rank limit room rest) :
    Reading .arguments rank limit room tokens := by
  have completes : Completes .arguments rank limit room [] tokens := by
    refine ⟨[closingLexeme .closeParen], spelled_singleton rfl, fun _ => List.cons_ne_nil _ _, ?_⟩
    exact fun after _ => ⟨[], plain_arguments_close rfl⟩
  cases tokens with
  | nil =>
      refine .refuse .endOfInput rfl (fun limit room rest alike => ?_) completes
      rw [beginAlike_nil alike, Reader.arguments, plain_arguments_nil]
  | cons next tokens =>
      by_cases closes : next.token = .mark .closeParen
      · refine .take (.pure []) ?_ .pure
        intro limit room lead rest word
        obtain ⟨token, _⟩ := word_eq_iff.mp word
        exact plain_arguments_close (token.trans closes)
      · refine (reading (Nat.le_refl _)).begin ?_ plain_shorter completes
        intro limit room lead rest word
        obtain ⟨token, _⟩ := word_eq_iff.mp word
        exact plain_arguments_some (token ▸ closes)

theorem signed_reading
    (reading : ∀ {lower : Nat} {rest : List Lexeme}, rest.length < tokens.length →
      Reading (.phrase .signed) Category.signed.rank limit lower rest)
    (readingApplied : Reading (.phrase .applied) Category.applied.rank limit room tokens) :
    Reading (.phrase .signed) Category.signed.rank limit room tokens := by
  cases tokens with
  | nil =>
      -- A phrase is due here whatever its category, and a name would have been one.
      refine .refuse .endOfInput rfl (fun limit room rest alike => ?_) (completes_someName .signed)
      rw [beginAlike_nil alike]
      exact plain_unary_nil
  | cons next tail =>
      by_cases signed : ∃ build, Signs next.token build
      · obtain ⟨build, sign⟩ := signed
        refine .nest ((Reader.phrase .signed).andThen fun operand => .pure (build operand)) ?_
          fun lower _ => ?_
        · intro limit room lead rest word
          obtain ⟨token, _⟩ := word_eq_iff.mp word
          exact plain_unary_sign (token ▸ sign)
        · exact (reading (Nat.lt_succ_self _)).thenMore (Nat.le_refl _) (fun _ _ _ => ⟨_, rfl⟩)
            fun _ => .pure
      · refine .begin (readingApplied.widen (by decide)) ?_ read_shorter
          (completes_someName .signed)
        intro limit room lead rest word
        obtain ⟨token, _⟩ := word_eq_iff.mp word
        exact plain_unary_applied (fun bang => signed ⟨_, .inl ⟨token ▸ bang, rfl⟩⟩)
          (fun minus => signed ⟨_, .inr ⟨token ▸ minus, rfl⟩⟩)

theorem atom_reading
    (reading : ∀ {lower : Nat} {rest : List Lexeme}, rest.length < tokens.length →
      Reading (.phrase .whole) Category.whole.rank limit lower rest) :
    Reading (.phrase .atom) Category.atom.rank limit room tokens := by
  cases tokens with
  | nil =>
      refine .refuse .endOfInput rfl (fun limit room rest alike => ?_) (completes_someName .atom)
      rw [beginAlike_nil alike]
      exact plain_atom_nil
  | cons next tail =>
      cases found : next.token with
      | decimal | hex =>
          refine .take _ ?_ (suffixed_reading (.number next.text))
          intro limit room lead rest word
          obtain ⟨token, text⟩ := word_eq_iff.mp word
          rw [Reader.phrase, read, plain_atom, token, found, text]
      | scientific =>
          refine .take _ ?_ (suffixed_reading (scientificParts next.text))
          intro limit room lead rest word
          obtain ⟨token, text⟩ := word_eq_iff.mp word
          rw [Reader.phrase, read, plain_atom, token, found, text]
      | string =>
          refine .take (.pure (.string next.text)) ?_ .pure
          intro limit room lead rest word
          obtain ⟨token, text⟩ := word_eq_iff.mp word
          rw [Reader.phrase, read, plain_atom, token, found, text]
          rfl
      | name =>
          refine .take (.pure (.ofName next.text)) ?_ .pure
          intro limit room lead rest word
          obtain ⟨token, text⟩ := word_eq_iff.mp word
          rw [Reader.phrase, read, plain_atom, token, found, text]
          rfl
      | mark symbol =>
          by_cases opens : symbol = .openParen
          · subst opens
            refine .nest (enclosed (.phrase .whole) (.mark .closeParen)) ?_
              fun lower _ => enclosed_reading (reading (Nat.lt_succ_self _)) (by decide)
            intro limit room lead rest word
            exact Reader.phrase_group ((word_eq_iff.mp word).1.trans found)
          · refine .refuse (.unexpected (.mark symbol)) rfl (fun limit room rest alike => ?_)
              (completes_someName .atom)
            obtain ⟨lead, rest, rfl, word⟩ := beginAlike_cons alike
            rw [Reader.phrase, read, plain_atom, (word_eq_iff.mp word).1, found]
            cases symbol <;> first | rfl | contradiction

end

mutual

theorem phrase_reading (category : Category) {limit room : Nat} {tokens : List Lexeme} :
    Reading (.phrase category) category.rank limit room tokens := by
  cases category with
  | chain level =>
      have tighter := Category.rank_ofOperands_lt level
      rw [Reader.chain_eq]
      refine (phrase_reading (.ofOperands level)).thenMore (Nat.le_of_lt tighter)
        (fun _ _ stops => ⟨_, resume_stops stops⟩) fun {first rest} done => ?_
      have shorter := read_shorter done
      exact resuming_reading (.chain level) first
  | applied =>
      rw [Reader.applied_eq]
      refine (phrase_reading .atom).thenMore (by decide)
        (fun _ _ stops => ⟨_, resume_stops stops⟩) fun {first rest} done => ?_
      have shorter := read_shorter done
      exact resuming_reading .applied first
  | signed => exact signed_reading (fun fewer => phrase_reading .signed) (phrase_reading .applied)
  | atom => exact atom_reading fun fewer => phrase_reading .whole
termination_by (tokens.length, category.rank)
decreasing_by
  all_goals first
    | decreasing_tactic
    | (subst_vars; exact Prod.Lex.right _ (by decide))

theorem resuming_reading (category : Category) (expr : Expr) {limit room : Nat}
    {tokens : List Lexeme} : Reading (.resuming category expr) category.rank limit room tokens := by
  cases tokens with
  | nil =>
      refine .stop expr fun _ _ rest follow => ?_
      rcases follow with alike | stops
      · rw [beginAlike_nil alike]
        exact resume_stops trivial
      · exact resume_stops stops
  | cons next tail =>
      cases category with
      | signed | atom => exact .pure
      | chain level =>
          cases found : level.operator? next.token with
          | none =>
              refine .stop expr fun _ _ rest follow => ?_
              rcases follow with alike | stops
              · obtain ⟨lead, rest, rfl, word⟩ := beginAlike_cons alike
                rw [← (word_eq_iff.mp word).1] at found
                exact plain_chainRest_stop found
              · exact resume_stops stops
          | some op =>
              refine .nest ((Reader.phrase (.ofOperands level)).andThen fun right =>
                .resuming (.chain level) (.binary op expr right)) ?_ fun lower _ => ?_
              · intro limit room lead rest word
                rw [← (word_eq_iff.mp word).1] at found
                exact Reader.resuming_operator found
              · have tighter := Category.rank_ofOperands_lt level
                refine (phrase_reading (.ofOperands level)).thenMore (Nat.le_of_lt tighter)
                  (fun _ _ stops => ⟨_, resume_stops stops⟩) fun {right rest} done => ?_
                have shorter := read_shorter done
                exact resuming_reading (.chain level) (.binary op expr right)
      | applied =>
          by_cases dot : next.token = .mark .dot
          · refine .nest ((expecting .name).andThen fun name =>
              .resuming .applied (.member expr name)) ?_ fun lower _ => ?_
            · intro limit room lead rest word
              exact Reader.resuming_member ((word_eq_iff.mp word).1.trans dot)
            · refine (expecting_reading someName someName_spells).thenMore (Nat.zero_le _)
                (fun _ _ stops => ⟨_, resume_stops stops⟩) fun {name rest} done => ?_
              have shorter : rest.length < tail.length := plain_shorter done
              exact resuming_reading .applied (.member expr name)
          by_cases opens : next.token = .mark .openBracket
          · refine .nest ((enclosed (.phrase .whole) (.mark .closeBracket)).andThen fun position =>
              .resuming .applied (.index expr position)) ?_ fun lower _ => ?_
            · intro limit room lead rest word
              exact Reader.resuming_index ((word_eq_iff.mp word).1.trans opens)
            · refine (enclosed_reading (phrase_reading .whole) (by decide)).thenMore (Nat.zero_le _)
                (fun _ _ stops => ⟨_, resume_stops stops⟩) fun {position rest} done => ?_
              have shorter : rest.length < tail.length := enclosed_shorter read_shorter done
              exact resuming_reading .applied (.index expr position)
          by_cases call : next.token = .mark .openParen
          · refine .nest (Reader.arguments.andThen fun args =>
              .resuming .applied (.call expr args)) ?_ fun lower _ => ?_
            · intro limit room lead rest word
              exact Reader.resuming_call ((word_eq_iff.mp word).1.trans call)
            · have reading : Reading .arguments 0 limit lower tail :=
                arguments_reading fun fewer => someArguments_reading
              refine reading.thenMore (Nat.zero_le _)
                (fun _ _ stops => ⟨_, resume_stops stops⟩) fun {args rest} done => ?_
              have shorter : rest.length < tail.length := plain_shorter done
              exact resuming_reading .applied (.call expr args)
          · refine .stop expr fun _ _ rest follow => ?_
            rcases follow with alike | stops
            · obtain ⟨lead, rest, rfl, word⟩ := beginAlike_cons alike
              rw [← (word_eq_iff.mp word).1] at dot opens call
              exact plain_appliedRest_stop dot opens call
            · exact resume_stops stops
termination_by (tokens.length, 0)

theorem someArguments_reading {limit room rank : Nat} {tokens : List Lexeme} :
    Reading .someArguments rank limit room tokens := by
  rw [Reader.someArguments_eq]
  refine (phrase_reading .whole).thenTake (closingLexeme .closeParen) rfl (by decide)
    (fun first _ => ⟨[first], rfl⟩) separated_shorter fun {first rest} done => ?_
  have shorter := read_shorter done
  exact separated_reading fun fewer => someArguments_reading
termination_by (tokens.length, Category.whole.rank + 1)

end

end EtherCalc.Parser
