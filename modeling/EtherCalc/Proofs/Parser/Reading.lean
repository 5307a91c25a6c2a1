import EtherCalc.Proofs.Language.Boundary
import EtherCalc.Proofs.Lexer.Spelling
import EtherCalc.Proofs.Parser.Plain

/-!
What one reading depends on.

A reading that has nesting steps enough depends on the lexemes that it takes and on the kind and
the text of the first one that it leaves.  It does not depend on the limit, on the places of the
lexemes or on what comes later.  When it is refused, what it had taken could have been completed.
`Reading` says this of one reading; there is a rule for each way in which readers are put together.
-/

namespace EtherCalc

/-- The kind and the text of a lexeme, without its place. -/
def Lexeme.word (lexeme : Lexeme) : Token × String :=
  (lexeme.token, lexeme.text)

def ParseFault.isTooDeep : ParseFault → Bool
  | .tooDeep _ => true
  | _ => false

namespace Parser

/-- Reads a value under a limit, with the nesting steps that are still allowed. -/
abbrev Reader (α : Type) : Type :=
  (limit room : Nat) → List Lexeme → Except Refusal (α × List Lexeme)

namespace Reader

variable {α β : Type}

def pure (value : α) : Reader α :=
  fun _ _ tokens => .ok (value, tokens)

def andThen (first : Reader α) (next : α → Reader β) : Reader β := fun limit room tokens =>
  (first limit room tokens).bind fun read => next read.1 limit room read.2

theorem andThen_assoc {γ : Type} {first : Reader α} {next : α → Reader β} {last : β → Reader γ} :
    (first.andThen next).andThen last = first.andThen fun value => (next value).andThen last := by
  funext limit room tokens
  simp only [andThen]
  cases first limit room tokens <;> rfl

end Reader

/-- A reader that looks at one lexeme cannot tell the two lists apart. -/
def BeginAlike (tokens other : List Lexeme) : Prop :=
  tokens.head?.map Lexeme.word = other.head?.map Lexeme.word

section

variable {α β : Type} {reader other first : Reader α} {next : α → Reader β}
variable {rank before limit room : Nat} {lead : Lexeme} {tokens phrase later rest : List Lexeme}

theorem beginAlike_nil (alike : BeginAlike [] rest) : rest = [] := by
  cases rest with
  | nil => rfl
  | cons lead rest => contradiction

theorem beginAlike_cons (alike : BeginAlike (lead :: tokens) rest) :
    ∃ lead' rest', rest = lead' :: rest' ∧ lead'.word = lead.word := by
  cases rest with
  | nil => contradiction
  | cons lead' rest' => exact ⟨lead', rest', rfl, (Option.some.inj alike).symm⟩

/-- A phrase decides how the list begins, and an empty one leaves that to what follows. -/
theorem BeginAlike.append {phrase' rest' : List Lexeme}
    (same : phrase'.map Lexeme.word = phrase.map Lexeme.word)
    (alike : phrase = [] → BeginAlike rest rest') :
    BeginAlike (phrase ++ rest) (phrase' ++ rest') := by
  cases phrase with
  | nil =>
      obtain rfl := List.map_eq_nil_iff.mp same
      exact alike rfl
  | cons lead phrase =>
      obtain ⟨lead', phrase', rfl, word, _⟩ := List.map_eq_cons_iff.mp same
      exact congrArg some word.symm

/-- Whenever the words of the phrase come before something that may follow, the reader has the
outcome, if it has as many nesting steps. -/
def Repeats (reader : Reader α) (room : Nat) (phrase : List Lexeme) (follows : List Lexeme → Prop)
    (outcome : List Lexeme → Except Refusal (α × List Lexeme)) : Prop :=
  ∀ {limit' room' : Nat} {phrase' rest' : List Lexeme}, room ≤ room' →
    phrase'.map Lexeme.word = phrase.map Lexeme.word → follows rest' →
      reader limit' room' (phrase' ++ rest') = outcome rest'

/-- More lexemes after the phrase make the reader succeed.  At the end of the source one at least
is missing. -/
def Completes (reader : Reader α) (rank limit room : Nat) (phrase rest : List Lexeme) : Prop :=
  ∃ closing, Spelled closing ∧ (rest = [] → closing ≠ []) ∧ ∀ after, Stops rank after →
    ∃ value, reader limit room (phrase ++ (closing ++ after)) = .ok (value, after)

/-- How a reading went.  What stops a phrase of the rank may follow it, whatever else it is. -/
inductive Reading (reader : Reader α) (rank limit room : Nat) (tokens : List Lexeme) : Prop where
  | exhausted {rest : List Lexeme} (inside : rest <:+ tokens)
      (outcome : reader limit room tokens = .error ⟨.tooDeep limit, rest⟩)
      (short : room < tokens.length)
  | finished {phrase rest : List Lexeme} {value : α} (split : tokens = phrase ++ rest)
      (again : Repeats reader room phrase (fun rest' => BeginAlike rest rest' ∨ Stops rank rest')
        fun rest' => .ok (value, rest'))
  | refused {phrase rest : List Lexeme} {fault : ParseFault} (split : tokens = phrase ++ rest)
      (ownFault : fault.isTooDeep = false)
      (again : Repeats reader room phrase (BeginAlike rest) fun rest' => .error ⟨fault, rest'⟩)
      (completes : Completes reader rank limit room phrase rest)

/-- What may follow a reading does follow it where it was made. -/
theorem Repeats.here {follows : List Lexeme → Prop}
    {outcome : List Lexeme → Except Refusal (α × List Lexeme)}
    (again : Repeats reader room phrase follows outcome) (follow : follows rest) :
    reader limit room (phrase ++ rest) = outcome rest :=
  again (Nat.le_refl _) rfl follow

theorem Repeats.cons {inner : Reader α} {lower : Nat} {follows : List Lexeme → Prop}
    {outcome : List Lexeme → Except Refusal (α × List Lexeme)}
    (again : Repeats inner lower phrase follows outcome)
    (takes : ∀ {limit' room' : Nat} {lead' : Lexeme} {rest' : List Lexeme}, room ≤ room' →
      lead'.word = lead.word → ∃ lower', lower ≤ lower' ∧
        reader limit' room' (lead' :: rest') = inner limit' lower' rest') :
    Repeats reader room (lead :: phrase) follows outcome := by
  intro limit' room' phrase' rest' enough same follow
  obtain ⟨lead', phrase', rfl, word, same⟩ := List.map_eq_cons_iff.mp same
  obtain ⟨lower', enough, taken⟩ := @takes limit' room' lead' (phrase' ++ rest') enough word
  rw [List.cons_append, taken, again enough same follow]

theorem Repeats.andThen {follows joins : List Lexeme → Prop} {value : α}
    {outcome : List Lexeme → Except Refusal (β × List Lexeme)}
    (again : Repeats first room phrase joins fun rest' => .ok (value, rest'))
    (againLater : Repeats (next value) room later follows outcome)
    (joined : ∀ {later' rest' : List Lexeme},
      later'.map Lexeme.word = later.map Lexeme.word → follows rest' → joins (later' ++ rest')) :
    Repeats (first.andThen next) room (phrase ++ later) follows outcome := by
  intro limit' room' phrase' rest' enough same follow
  rw [List.map_append] at same
  obtain ⟨before', later', rfl, sameFirst, sameLater⟩ := List.map_eq_append_iff.mp same
  rw [List.append_assoc, Reader.andThen, again enough sameFirst (joined sameLater follow)]
  exact againLater enough sameLater follow

theorem Repeats.andThen_refused {follows : List Lexeme → Prop} {fault : ParseFault}
    (again : Repeats first room phrase follows fun rest' => .error ⟨fault, rest'⟩) :
    Repeats (first.andThen next) room phrase follows fun rest' => .error ⟨fault, rest'⟩ := by
  intro limit' room' phrase' rest' enough same follow
  rw [Reader.andThen, again enough same follow]
  rfl

theorem Repeats.begin {follows : List Lexeme → Prop}
    {outcome : List Lexeme → Except Refusal (α × List Lexeme)}
    (again : Repeats other room (lead :: phrase) follows outcome)
    (same : ∀ {limit room : Nat} {lead' : Lexeme} {rest : List Lexeme}, lead'.word = lead.word →
      reader limit room (lead' :: rest) = other limit room (lead' :: rest)) :
    Repeats reader room (lead :: phrase) follows outcome := by
  intro limit' room' phrase' rest' enough sameWords follow
  obtain ⟨lead', phrase'', rfl, word, _⟩ := List.map_eq_cons_iff.mp sameWords
  exact (same word).trans (again enough sameWords follow)

theorem Reading.widen {wider : Nat} (reading : Reading reader rank limit room tokens)
    (le : rank ≤ wider) : Reading reader wider limit room tokens := by
  cases reading with
  | exhausted inside outcome short => exact .exhausted inside outcome short
  | finished split again =>
      exact .finished split fun enough same follow =>
        again enough same (follow.imp_right fun stops => stops.mono le)
  | refused split ownFault again completes =>
      obtain ⟨closing, spelled, some, completes⟩ := completes
      exact .refused split ownFault again
        ⟨closing, spelled, some, fun after stops => completes after (stops.mono le)⟩

theorem Reading.stop (value : α)
    (stops : ∀ limit room rest, BeginAlike tokens rest ∨ Stops rank rest →
      reader limit room rest = .ok (value, rest)) : Reading reader rank limit room tokens := by
  have again : Repeats reader room [] (fun rest' => BeginAlike tokens rest' ∨ Stops rank rest')
      fun rest' => .ok (value, rest') := by
    intro limit' room' phrase' rest' _ same follow
    obtain rfl := List.map_eq_nil_iff.mp same
    exact stops limit' room' rest' follow
  exact .finished (List.nil_append _).symm again

theorem Reading.pure {value : α} : Reading (Reader.pure value) rank limit room tokens :=
  .stop value fun _ _ _ _ => rfl

theorem Reading.refuse (fault : ParseFault) (ownFault : fault.isTooDeep = false)
    (refuses : ∀ limit room rest, BeginAlike tokens rest →
      reader limit room rest = .error ⟨fault, rest⟩)
    (completes : Completes reader rank limit room [] tokens) :
    Reading reader rank limit room tokens := by
  refine .refused (List.nil_append _).symm ownFault ?_ completes
  intro limit' room' phrase' rest' _ same alike
  obtain rfl := List.map_eq_nil_iff.mp same
  exact refuses limit' room' rest' alike

/-- A reader that takes one lexeme and goes on as another. -/
theorem Reading.take {takes : Lexeme} (inner : Reader α)
    (opens : ∀ {limit room : Nat} {lead : Lexeme} {rest : List Lexeme}, lead.word = takes.word →
      reader limit room (lead :: rest) = inner limit room rest)
    (reading : Reading inner rank limit room rest) :
    Reading reader rank limit room (takes :: rest) := by
  cases reading with
  | exhausted inside outcome short =>
      exact .exhausted (inside.trans (List.suffix_cons _ _)) ((opens rfl).trans outcome)
        (Nat.lt_succ_of_lt short)
  | @finished phrase rest value split again =>
      exact .finished (congrArg (takes :: ·) split)
        (again.cons fun enough word => ⟨_, enough, opens word⟩)
  | @refused phrase rest fault split ownFault again completes =>
      obtain ⟨closing, spelled, some, completes⟩ := completes
      refine .refused (congrArg (takes :: ·) split) ownFault
        (again.cons fun enough word => ⟨_, enough, opens word⟩) ⟨closing, spelled, some, ?_⟩
      intro after stops
      rw [List.cons_append, opens rfl]
      exact completes after stops

/-- A reader that takes one lexeme and goes on as another, one step deeper. -/
theorem Reading.nest {takes : Lexeme} (inner : Reader α)
    (opens : ∀ {limit room : Nat} {lead : Lexeme} {rest : List Lexeme}, lead.word = takes.word →
      reader limit room (lead :: rest) =
        (descend limit room rest).bind fun room => inner limit room rest)
    (reading : ∀ lower, room = lower + 1 → Reading inner rank limit lower rest) :
    Reading reader rank limit room (takes :: rest) := by
  have deeper {limit room : Nat} {lead : Lexeme} {rest : List Lexeme} (word : lead.word = takes.word) :
      reader limit (room + 1) (lead :: rest) = inner limit room rest :=
    opens word
  have enter {lower limit' room' : Nat} {lead : Lexeme} {rest' : List Lexeme}
      (enough : lower + 1 ≤ room') (word : lead.word = takes.word) : ∃ lower', lower ≤ lower' ∧
        reader limit' room' (lead :: rest') = inner limit' lower' rest' := by
    obtain ⟨lower', rfl⟩ := Nat.exists_eq_add_of_le' enough
    exact ⟨lower' + lower, Nat.le_add_left _ _, deeper word⟩
  cases room with
  | zero => exact .exhausted (List.suffix_cons _ _) (opens rfl) (Nat.zero_lt_succ _)
  | succ lower =>
      cases reading lower rfl with
      | exhausted inside outcome short =>
          exact .exhausted (inside.trans (List.suffix_cons _ _)) ((deeper rfl).trans outcome)
            (Nat.succ_lt_succ short)
      | @finished phrase rest value split again =>
          exact .finished (congrArg (takes :: ·) split) (again.cons enter)
      | @refused phrase rest fault split ownFault again completes =>
          obtain ⟨closing, spelled, some, completes⟩ := completes
          refine .refused (congrArg (takes :: ·) split) ownFault (again.cons enter)
            ⟨closing, spelled, some, ?_⟩
          intro after stops
          rw [List.cons_append, deeper rfl]
          exact completes after stops

/-- A reader after one that has read its phrase.  What stops it, if it may take nothing, stops the
first one too. -/
theorem Reading.after {value : α}
    (again : Repeats first room phrase (fun rest' => BeginAlike rest rest' ∨ Stops before rest')
      fun rest' => .ok (value, rest'))
    (closing : List Lexeme) (spelled : Spelled closing)
    (stopsFirst : ∀ after, Stops rank after → Stops before (closing ++ after))
    (closes : ∀ after, Stops rank after →
      ∃ last, next value limit room (closing ++ after) = .ok (last, after))
    (covers : ∀ {last}, next value limit room rest = .ok (last, rest) → before ≤ rank)
    (readingNext : Reading (next value) rank limit room rest) :
    Reading (first.andThen next) rank limit room (phrase ++ rest) := by
  have more {after : List Lexeme} (follow : BeginAlike rest after ∨ Stops before after) :
      first.andThen next limit room (phrase ++ after) = next value limit room after := by
    rw [Reader.andThen, again.here follow]
    rfl
  cases readingNext with
  | exhausted inside outcome short =>
      refine .exhausted (inside.trans (List.suffix_append _ _)) ((more (.inl rfl)).trans outcome) ?_
      rw [List.length_append]
      exact Nat.lt_add_left _ short
  | @finished later rest last split againNext =>
      subst split
      refine .finished (List.append_assoc _ _ _).symm (again.andThen againNext ?_)
      intro later' rest' same follow
      rcases follow with alike | stops
      · exact .inl (.append same fun _ => alike)
      · -- What follows stops the second reader; it meets the first one only if that took nothing.
        cases later with
        | cons lead later => exact .inl (.append same nofun)
        | nil =>
            obtain rfl := List.map_eq_nil_iff.mp same
            exact .inr (stops.mono (covers (againNext.here (.inl rfl))))
  | @refused later rest fault split ownFault againNext completes =>
      subst split
      refine .refused (List.append_assoc _ _ _).symm ownFault
        (again.andThen againNext fun same alike => .inl (.append same fun _ => alike)) ?_
      cases later with
      | cons lead later =>
          obtain ⟨missing, spelledMissing, some, completes⟩ := completes
          refine ⟨missing, spelledMissing, some, fun after stops => ?_⟩
          rw [List.append_assoc, more (.inl (.append rfl nofun))]
          exact completes after stops
      | nil =>
          refine ⟨closing, spelled, ?_, fun after stops => ?_⟩
          · -- At the end of the source the second reader is not content with nothing.
            rintro rfl rfl
            obtain ⟨last, done⟩ := closes [] trivial
            have refusal : next value limit room [] = .error ⟨fault, []⟩ := againNext.here rfl
            cases refusal.symm.trans done
          · rw [List.append_nil, more (.inr (stopsFirst after stops))]
            exact closes after stops

/-- Two readers in sequence.  The closing words are what the second one is content with whatever
the first one has read. -/
theorem Reading.andThen (reading : Reading first before limit room tokens) (closing : List Lexeme)
    (spelled : Spelled closing)
    (stopsFirst : ∀ after, Stops rank after → Stops before (closing ++ after))
    (closes : ∀ value after, Stops rank after →
      ∃ last, next value limit room (closing ++ after) = .ok (last, after))
    (covers : ∀ {value rest last}, next value limit room rest = .ok (last, rest) → before ≤ rank)
    (readingNext : ∀ {value rest}, first limit room tokens = .ok (value, rest) →
      Reading (next value) rank limit room rest) :
    Reading (first.andThen next) rank limit room tokens := by
  cases reading with
  | exhausted inside outcome short =>
      exact .exhausted inside (by rw [Reader.andThen, outcome]; rfl) short
  | @finished phrase rest value split again =>
      subst split
      have reached : first limit room (phrase ++ rest) = .ok (value, rest) := again.here (.inl rfl)
      exact .after again closing spelled stopsFirst (closes value) covers (readingNext reached)
  | @refused phrase rest fault split ownFault again completes =>
      obtain ⟨missing, spelledMissing, some, completes⟩ := completes
      refine .refused split ownFault again.andThen_refused
        ⟨missing ++ closing, spelledMissing.append spelled, ?_, ?_⟩
      · intro atEnd none
        exact some atEnd (List.append_eq_nil_iff.mp none).1
      · intro after stops
        obtain ⟨value, done⟩ := completes (closing ++ after) (stopsFirst after stops)
        rw [List.append_assoc, Reader.andThen, done]
        exact closes value after stops

/-- The second reader takes nothing when it is stopped at once. -/
theorem Reading.thenMore (reading : Reading first before limit room tokens) (le : before ≤ rank)
    (stops : ∀ value after, Stops rank after →
      ∃ last, next value limit room after = .ok (last, after))
    (readingNext : ∀ {value rest}, first limit room tokens = .ok (value, rest) →
      Reading (next value) rank limit room rest) :
    Reading (first.andThen next) rank limit room tokens :=
  reading.andThen [] nofun (fun _ stop => stop.mono le) stops (fun _ => le) readingNext

/-- The second reader takes one lexeme at least, and nothing more than the closing one if that
comes at once. -/
theorem Reading.thenTake (reading : Reading first before limit room tokens) (closing : Lexeme)
    (spelled : closing.token.Spells closing.text.toList) (looser : before < closing.token.bond)
    (closes : ∀ value after, ∃ last, next value limit room (closing :: after) = .ok (last, after))
    (takes : ∀ {value rest last rest'}, next value limit room rest = .ok (last, rest') →
      rest'.length < rest.length)
    (readingNext : ∀ {value rest}, first limit room tokens = .ok (value, rest) →
      Reading (next value) rank limit room rest) :
    Reading (first.andThen next) rank limit room tokens := by
  refine reading.andThen [closing] ?_ (fun _ _ => looser)
    (fun value after _ => closes value after) ?_ readingNext
  · intro lexeme member
    cases List.mem_singleton.mp member
    exact spelled
  · intro value rest last done
    exact absurd (takes done) (Nat.lt_irrefl _)

/-- Two readers that differ only in how they begin. -/
theorem Reading.begin {lead : Lexeme} (reading : Reading other rank limit room (lead :: tokens))
    (same : ∀ {limit room : Nat} {lead' : Lexeme} {rest : List Lexeme}, lead'.word = lead.word →
      reader limit room (lead' :: rest) = other limit room (lead' :: rest))
    (takes : ∀ {value rest}, other limit room (lead :: tokens) = .ok (value, rest) →
      rest.length < (lead :: tokens).length)
    (completes : Completes reader rank limit room [] (lead :: tokens)) :
    Reading reader rank limit room (lead :: tokens) := by
  cases reading with
  | exhausted inside outcome short => exact .exhausted inside ((same rfl).trans outcome) short
  | @finished phrase rest value split again =>
      cases phrase with
      | nil =>
          cases split
          exact absurd (takes (again.here (.inl rfl))) (Nat.lt_irrefl _)
      | cons lead phrase =>
          cases split
          exact .finished rfl (again.begin same)
  | @refused phrase rest fault split ownFault again completesOther =>
      cases phrase with
      | nil =>
          cases split
          refine .refused (List.nil_append _).symm ownFault ?_ completes
          intro limit' room' phrase' rest' enough none alike
          obtain rfl := List.map_eq_nil_iff.mp none
          obtain ⟨lead', rest', rfl, word⟩ := beginAlike_cons alike
          exact (same word).trans (@again limit' room' [] (lead' :: rest') enough rfl alike)
      | cons lead phrase =>
          cases split
          obtain ⟨closing, spelled, some, completesOther⟩ := completesOther
          refine .refused rfl ownFault (again.begin same) ⟨closing, spelled, some, ?_⟩
          intro after stops
          rw [List.cons_append, same rfl]
          exact completesOther after stops

end

end Parser

end EtherCalc
