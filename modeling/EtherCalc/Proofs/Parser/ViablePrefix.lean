import EtherCalc.Proofs.Lexer.Order
import EtherCalc.Proofs.Parser.Outcome
import EtherCalc.Proofs.Parser.Recognition

namespace EtherCalc

/-- The error is reported at the byte of the source. -/
def ParseError.IsAt (error : ParseError) (source : String) (offset : Nat) : Prop :=
  error.location = some (Location.ofOffset source offset)

namespace Parser

/-- Some source with lexemes of these kinds and texts is an expression under the limit. -/
def Accepts (limit : Nat) (words : List (Token × String)) : Prop :=
  ∃ source tokens expr, lexemes source = .ok tokens ∧ tokens.map Lexeme.word = words ∧
    parse limit source = .ok expr

section

variable {limit : Nat} {source : String} {error : ParseError} {expr : Expr}
variable {tokens other : List Lexeme}

theorem offset_unique {first second : Nat} (firstInside : first ≤ source.utf8ByteSize)
    (secondInside : second ≤ source.utf8ByteSize) (isFirst : error.IsAt source first)
    (isSecond : error.IsAt source second) : first = second := by
  have same := congrArg Location.offset (Option.some.inj (isFirst.symm.trans isSecond))
  have clamped : min first source.utf8ByteSize = min second source.utf8ByteSize := same
  omega

theorem parse_eq_error (lexed : lexemes source = .ok tokens) : parse limit source = .error error ↔
    ∃ rest, parseTokens limit tokens = .error ⟨error.fault, rest⟩ ∧
      error.IsAt source (Refusal.offset source ⟨error.fault, rest⟩) := by
  obtain ⟨fault, location⟩ := error
  simp only [parse, lexed, ParseError.IsAt]
  cases parseTokens limit tokens with
  | ok expr => simp
  | error refusal =>
      obtain ⟨found, rest⟩ := refusal
      simp only [Except.error.injEq, ParseError.atOffset, ParseError.mk.injEq, Refusal.mk.injEq]
      constructor
      · rintro ⟨rfl, rfl⟩
        exact ⟨rest, ⟨rfl, rfl⟩, rfl⟩
      · rintro ⟨rest, ⟨rfl, rfl⟩, rfl⟩
        exact ⟨rfl, rfl⟩

theorem words_of_texts (spelled : Spelled tokens) (spelledOther : Spelled other)
    (texts : other.map Lexeme.text = tokens.map Lexeme.text) :
    other.map Lexeme.word = tokens.map Lexeme.word := by
  induction tokens generalizing other with
  | nil => rw [List.map_eq_nil_iff.mp texts]
  | cons first rest ih =>
      obtain ⟨first', rest', rfl, text, texts⟩ := List.map_eq_cons_iff.mp texts
      have spells := spelled first List.mem_cons_self
      have spellsOther := spelledOther first' List.mem_cons_self
      rw [text] at spellsOther
      have word : first'.word = first.word :=
        word_eq_iff.mpr ⟨Lexer.spells_unique spellsOther spells, text⟩
      rw [List.map_cons, List.map_cons, word, ih spelled.tail spelledOther.tail texts]

/-- Lexemes that could be spelled are found again where blanks keep their texts apart. -/
theorem lexemes_respelled (spelled : Spelled tokens)
    (spaced : Lexer.Spaced (tokens.map Lexeme.text) source.toList) :
    ∃ found, lexemes source = .ok found ∧ found.map Lexeme.word = tokens.map Lexeme.word := by
  have readable : Lexer.Readable (tokens.map Lexeme.text) := by
    intro text member
    obtain ⟨lexeme, inside, rfl⟩ := List.mem_map.mp member
    exact ⟨lexeme.token, spelled lexeme inside⟩
  obtain ⟨found, lexed, texts⟩ := lexemes_of_spaced spaced readable
  exact ⟨found, lexed, words_of_texts spelled (lexemes_spelled lexed) texts⟩

/-- An accepted list of lexemes that could be spelled is found in a source. -/
theorem accepts_of_parseTokens (spelled : Spelled tokens)
    (done : parseTokens limit tokens = .ok expr) : Accepts limit (tokens.map Lexeme.word) := by
  let texts := tokens.map Lexeme.text
  have spaced : Lexer.Spaced texts (String.ofList (Lexer.spread texts)).toList := by
    rw [String.toList_ofList]
    exact Lexer.spaced_spread texts
  obtain ⟨found, lexed, words⟩ := lexemes_respelled spelled spaced
  exact ⟨_, found, expr, lexed, words,
    parse_eq_ok.mpr ⟨found, lexed, parseTokens_raise done (Nat.le_refl _) words⟩⟩

/-- What large limits refuse is accepted under no limit. -/
theorem not_accepts_of_refused {words more : List (Token × String)} {found : Lexeme}
    (refuses : ∀ {larger : Nat} {before' rest' : List Lexeme}, limit ≤ larger →
      before'.map Lexeme.word = words → BeginAlike (found :: tokens) rest' →
        ∃ refusal, parseTokens larger (before' ++ rest') = .error refusal) {higher : Nat} :
    ¬ Accepts higher (words ++ found.word :: more) := by
  rintro ⟨source, lexemes, expr, lexed, same, accepted⟩
  obtain ⟨_, lexedAgain, done⟩ := parse_eq_ok.mp accepted
  cases lexed.symm.trans lexedAgain
  obtain ⟨before', rest', rfl, sameBefore, sameRest⟩ := List.map_eq_append_iff.mp same
  obtain ⟨found', after', rfl, word, _⟩ := List.map_eq_cons_iff.mp sameRest
  have alike : BeginAlike (found :: tokens) (found' :: after') := congrArg some word.symm
  -- Either limit may be the smaller one; under the larger of them both outcomes still hold.
  obtain ⟨refusal, refused⟩ := refuses (Nat.le_max_left limit higher) sameBefore alike
  have raised := parseTokens_raise done (Nat.le_max_right limit higher) rfl
  cases refused.symm.trans raised

/-- A source that is refused, but not because it is nested too deeply, is refused at one of its
lexemes or at its end.  The lexemes before that place begin an expression under the same limit, and
together with the one that stands there they begin no expression under any limit. -/
theorem error_at_first_wrong_lexeme (lexed : lexemes source = .ok tokens)
    (failed : parse limit source = .error error) (ownFault : error.fault.isTooDeep = false) :
    ((∃ found ∈ tokens, error.IsAt source found.start) ∨ error.IsAt source source.utf8ByteSize) ∧
    (∀ before found after, tokens = before ++ found :: after → error.IsAt source found.start →
      (∃ more, Accepts limit (before.map Lexeme.word ++ more)) ∧
        ∀ higher more, ¬ Accepts higher (before.map Lexeme.word ++ found.word :: more)) ∧
    (error.IsAt source source.utf8ByteSize →
      ∃ more, more ≠ [] ∧ Accepts limit (tokens.map Lexeme.word ++ more)) := by
  obtain ⟨rest, refused, place⟩ := (parse_eq_error lexed).mp failed
  obtain ⟨before, split, again, closing, spelledClosing, some, expr, completed⟩ :=
    parseTokens_refused refused ownFault
  have spelled : Spelled (before ++ rest) := split ▸ lexemes_spelled lexed
  have ordered : Ordered 0 source.utf8ByteSize (before ++ rest) := split ▸ lexemes_ordered lexed
  have viable : Accepts limit (before.map Lexeme.word ++ closing.map Lexeme.word) := by
    rw [← List.map_append]
    exact accepts_of_parseTokens (spelled.before.append spelledClosing) completed
  cases rest with
  | nil =>
      have place : error.IsAt source source.utf8ByteSize := place
      rw [List.append_nil] at split ordered
      subst split
      refine ⟨.inr place, ?_, fun _ => ⟨_, ?_, viable⟩⟩
      · -- No lexeme starts where the source ends.
        rintro before found after rfl isAt
        have inside : found.start < source.utf8ByteSize := ordered.start_lt (by simp)
        have same := offset_unique (Nat.le_of_lt inside) (Nat.le_refl _) isAt place
        omega
      · exact fun none => some rfl (List.map_eq_nil_iff.mp none)
  | cons found after =>
      have place : error.IsAt source found.start := place
      have inside : found.start < source.utf8ByteSize := ordered.start_lt (by simp)
      refine ⟨.inl ⟨found, by simp [split], place⟩, ?_, ?_⟩
      · intro before' found' after' splitToo isAt
        have same := split.symm.trans splitToo
        have inside' : found'.start < source.utf8ByteSize := ordered.start_lt (by simp [same])
        obtain ⟨rfl, rfl, rfl⟩ := ordered.split_unique same
          (offset_unique (Nat.le_of_lt inside) (Nat.le_of_lt inside') place isAt)
        exact ⟨⟨_, viable⟩, fun higher more => not_accepts_of_refused
          fun le same alike => ⟨_, again le same alike⟩⟩
      · intro atEnd
        have same := offset_unique (Nat.le_of_lt inside) (Nat.le_refl _) place atEnd
        omega

/-- A name after an argument: a comma could have stood there, but never the name. -/
theorem error_at_first_wrong_lexeme_argument :
    let before : List Lexeme := [⟨.name, "f", 0⟩, ⟨.mark .openParen, "(", 1⟩, ⟨.decimal, "1", 2⟩]
    let found : Lexeme := ⟨.name, "foo", 4⟩
    let error : ParseError := ⟨.unseparated .name, some ⟨4, 1, 5⟩⟩
    lexemes "f(1 foo" = .ok (before ++ [found]) ∧ parse 1 "f(1 foo" = .error error ∧
      (∃ more, Accepts 1 (before.map Lexeme.word ++ more)) ∧
        ∀ higher more, ¬ Accepts higher (before.map Lexeme.word ++ found.word :: more) := by
  intro before found error
  have lexed : lexemes "f(1 foo" = .ok (before ++ [found]) := by cbv
  have failed : parse 1 "f(1 foo" = .error error := by cbv
  have isAt : error.IsAt "f(1 foo" found.start := by
    unfold ParseError.IsAt
    cbv
  exact ⟨lexed, failed, (error_at_first_wrong_lexeme lexed failed rfl).2.1 before found [] rfl isAt⟩

end

end Parser

end EtherCalc
