import EtherCalc.Proofs.Lexer.Reaching
import EtherCalc.Proofs.Sequence

/-!
The lexer cuts a source into longest tokens, and loses nothing.

`Cut` is the rule for one token: the longest one, or one letter less where a hexadecimal literal
has taken the `e` of an `ether`.  `Tokenized` follows the rule through a text.
-/

namespace EtherCalc

namespace Lexer

/-- The longest token is a hexadecimal literal of two digits or more that ends in `e`, and the
name `ther` comes right after it. -/
structure CutsEther (text after : List Char) : Prop where
  longest : Token.hex.Longest text after
  digits : ∃ mark digits, text = '0' :: mark :: (digits ++ ['e']) ∧ digits ≠ []
  name : ∃ rest, after = ['t', 'h', 'e', 'r'] ++ rest ∧ Token.name.Longest ['t', 'h', 'e', 'r'] rest

/-- Where the text begins, it is to be cut off as a token of the kind. -/
inductive Cut : Token → List Char → List Char → Prop where
  | longest {kind : Token} {text after : List Char} (longest : kind.Longest text after)
      (whole : ¬ CutsEther text after) : Cut kind text after
  | shortened {text after : List Char} (cuts : CutsEther (text ++ ['e']) after) :
      Cut .hex text ('e' :: after)

/-- The characters from a byte offset on are blanks and the lexemes, each cut off by the rule. -/
inductive Tokenized : Nat → List Char → List Lexeme → Prop where
  | done {offset : Nat} : Tokenized offset [] []
  | blank {offset : Nat} {first : Char} {rest : List Char} {found : List Lexeme}
      (isBlank : isSpace first = true) (later : Tokenized (offset + first.utf8Size) rest found) :
      Tokenized offset (first :: rest) found
  | token {offset : Nat} {kind : Token} {text after : List Char} {found : List Lexeme}
      (cut : Cut kind text after) (later : Tokenized (offset + byteLength text) after found) :
      Tokenized offset (text ++ after) (⟨kind, String.ofList text, offset⟩ :: found)

section

variable {offset : Nat} {first : Char} {chars text before after rest blanks : List Char}
variable {found later tokens : List Lexeme} {lexeme other : Lexeme} {kind : Token}

theorem Scanned.of_longest (longest : kind.Longest text after)
    (scanned : Scanned offset (text ++ after) found) :
    ∃ later, found = ⟨kind, String.ofList text, offset⟩ :: later ∧
      Scanned (offset + byteLength text) after later := by
  have found := scanned.scan
  rw [scan_token longest] at found
  obtain ⟨later, scannedLater, same⟩ := map_eq_ok.mp found
  exact ⟨later, same.symm, scanned_of_scan scannedLater⟩

/-- What was scanned begins with blanks and, if there is a lexeme, a longest token. -/
theorem Scanned.uncons (scanned : Scanned offset chars (lexeme :: later)) :
    ∃ blanks kind text after, chars = blanks ++ (text ++ after) ∧
      (∀ c ∈ blanks, isSpace c = true) ∧ kind.Longest text after ∧
      lexeme = ⟨kind, String.ofList text, offset + byteLength blanks⟩ ∧
      Scanned (offset + byteLength blanks + byteLength text) after later := by
  generalize whole : lexeme :: later = found at scanned
  induction scanned with
  | done => contradiction
  | @space offset first rest found isBlank scanned ih =>
      obtain ⟨blanks, kind, text, after, rfl, blank, longest, rfl, scannedLater⟩ := ih whole
      have size : offset + byteLength (first :: blanks) =
          offset + first.utf8Size + byteLength blanks := (Nat.add_assoc _ _ _).symm
      rw [← size] at scannedLater ⊢
      exact ⟨first :: blanks, kind, text, after, rfl, by simpa using ⟨isBlank, blank⟩, longest, rfl,
        scannedLater⟩
  | @token offset length first rest token found solid cut scanned ih =>
      obtain ⟨rfl, rfl⟩ := List.cons.inj whole
      exact ⟨[], token, _, rest.drop length, take_append_drop_cons.symm, by simp,
        tokenAt?_longest cut, rfl, scanned⟩

theorem Scanned.nothing (scanned : Scanned offset chars []) : Tokenized offset chars [] := by
  generalize none : [] = found at scanned ⊢
  induction scanned with
  | done => exact .done
  | space isBlank later ih => exact .blank isBlank (ih none)
  | token => contradiction

theorem Tokenized.skip (blank : ∀ c ∈ blanks, isSpace c = true)
    (later : Tokenized (offset + byteLength blanks) rest found) :
    Tokenized offset (blanks ++ rest) found := by
  induction blanks generalizing offset with
  | nil => exact later
  | cons first blanks ih =>
      have here : isSpace first = true := blank first List.mem_cons_self
      refine .blank here (ih (fun c member => blank c (List.mem_cons_of_mem _ member)) ?_)
      rwa [Nat.add_assoc]

/-- Where the longest tokens cut an `ether`, they give the pair of lexemes that is to be mended. -/
theorem CutsEther.splits (cuts : CutsEther text after)
    (scanned : Scanned (offset + byteLength text) after later) :
    ∃ second rest, later = second :: rest ∧
      splitsEther ⟨.hex, String.ofList text, offset⟩ second = true := by
  obtain ⟨mark, digits, spelled, some⟩ := cuts.digits
  obtain ⟨rest, rfl, name⟩ := cuts.name
  obtain ⟨later, rfl, _⟩ := scanned.of_longest name
  have positive : 0 < digits.length := List.length_pos_iff.mpr some
  have last : text.getLast? = .some 'e' := by simp [spelled, List.getLast?_cons]
  have long : 3 < text.length := by
    rw [spelled]
    simp only [List.length_cons, List.length_append, List.length_nil]
    omega
  exact ⟨_, later, rfl, by simp [splitsEther, last, long, Lexeme.stop, ← byteLength_toList]⟩

/-- The pair of lexemes that is to be mended is an `ether` that the longest tokens cut. -/
theorem cutsEther_of_splits (longest : kind.Longest text after)
    (scanned : Scanned (offset + byteLength text) after (other :: later))
    (splits : splitsEther ⟨kind, String.ofList text, offset⟩ other = true) :
    kind = .hex ∧ CutsEther text after ∧ ∃ rest, after = ['t', 'h', 'e', 'r'] ++ rest ∧
      Token.name.Longest ['t', 'h', 'e', 'r'] rest ∧
      other = ⟨.name, "ther", offset + byteLength text⟩ ∧
      Scanned (offset + byteLength text + 4) rest later := by
  obtain ⟨rfl, touches, long, last, isName, ther⟩ := splitsEther_spec splits
  obtain ⟨blanks, kind, name, rest, rfl, _, longestName, rfl, scannedLater⟩ := scanned.uncons
  have none : blanks = [] := byteLength_eq_zero (by
    simp only [Lexeme.stop, utf8ByteSize_ofList] at touches
    omega)
  obtain rfl : name = ['t', 'h', 'e', 'r'] := by simpa using congrArg String.toList ther
  subst isName none
  rw [String.toList_ofList] at last
  rw [String.length_ofList] at long
  obtain ⟨mark, digits, spelled, isMark, some⟩ := longest.spells
  obtain ⟨shorter, rfl⟩ : ∃ shorter, digits = shorter ++ ['e'] := by
    refine List.getLast?_eq_some_iff.mp ?_
    rw [← last, spelled, List.getLast?_cons_of_ne_nil (List.cons_ne_nil _ _),
      List.getLast?_cons_of_ne_nil some.1]
  have digit : shorter ≠ [] := by
    rintro rfl
    simp [spelled] at long
  have cuts : CutsEther text (['t', 'h', 'e', 'r'] ++ rest) :=
    ⟨longest, ⟨mark, shorter, spelled, digit⟩, rest, rfl, longestName⟩
  exact ⟨rfl, cuts, rest, rfl, longestName, rfl, scannedLater⟩

theorem isName_of_starts (starts : startsName first = true) (spelled : kind.Spells (first :: rest)) :
    kind = .name := by
  cases kind with
  | name => rfl
  | decimal =>
      have digit : isDigit 10 first = true := spelled.2 first List.mem_cons_self
      rw [startsName_not_digit starts] at digit
      contradiction
  | hex =>
      obtain ⟨mark, digits, same, _⟩ := spelled
      cases same
      contradiction
  | scientific =>
      obtain ⟨mantissa, mark, exponent, same, _, digits, _⟩ := spelled
      cases mantissa with
      | nil => exact absurd rfl digits.1
      | cons head mantissa =>
          obtain ⟨rfl, _⟩ := List.cons.inj same
          have digit : isDigit 10 first = true := digits.2 first List.mem_cons_self
          rw [startsName_not_digit starts] at digit
          contradiction
  | string =>
      obtain ⟨inside, same, _⟩ := spelled
      cases same
      contradiction
  | mark symbol =>
      cases symbol <;> cases spelled <;> contradiction

theorem ether_longest (longest : Token.name.Longest ['t', 'h', 'e', 'r'] rest) :
    Token.name.Longest ['e', 't', 'h', 'e', 'r'] rest := by
  refine ⟨⟨'e', _, rfl, by decide, List.all_eq_true.mp (by decide)⟩,
    fun other more left split spelled => ?_⟩
  -- A longer token would be a name too, and `ther` could be continued as it is.
  obtain rfl := isName_of_starts (by decide) spelled
  obtain ⟨_, _, same, _, continues⟩ := spelled
  cases same
  refine longest.longest .name more left split ⟨'t', _, rfl, by decide, fun c member => ?_⟩
  exact continues c (List.mem_cons_of_mem _ member)

theorem not_cutsEther (longest : kind.Longest text after) (other : kind ≠ .hex) :
    ¬ CutsEther text after :=
  fun cuts => other (longest_unique longest cuts.longest rfl).1

/-- An `ether` that would be cut is a lexeme, after the literal that has one letter less. -/
theorem Tokenized.ether (cuts : CutsEther (text ++ ['e']) (['t', 'h', 'e', 'r'] ++ rest))
    (name : Token.name.Longest ['t', 'h', 'e', 'r'] rest)
    (later : Tokenized (offset + byteLength text + 5) rest found) :
    Tokenized offset (text ++ ['e'] ++ (['t', 'h', 'e', 'r'] ++ rest))
      (⟨.hex, String.ofList text, offset⟩ ::
        ⟨.name, "ether", offset + byteLength text⟩ :: found) := by
  have ether := ether_longest name
  have second : Tokenized (offset + byteLength text) (['e', 't', 'h', 'e', 'r'] ++ rest)
      (⟨.name, "ether", offset + byteLength text⟩ :: found) :=
    .token (.longest ether (not_cutsEther ether nofun)) later
  rw [List.append_assoc]
  exact .token (.shortened cuts) second

/-- `handBack` makes of the longest tokens those of the rule. -/
theorem Scanned.tokenized (scanned : Scanned offset chars found) :
    Tokenized offset chars (handBack found) := by
  induction found using handBack.induct generalizing offset chars with
  | case1 first second found splits ih =>
      obtain ⟨blanks, kind, text, after, rfl, blank, longest, rfl, scannedLater⟩ := scanned.uncons
      rw [handBack, if_pos splits]
      obtain ⟨rfl, cuts, rest, rfl, name, rfl, scannedLast⟩ :=
        cutsEther_of_splits longest scannedLater splits
      obtain ⟨shorter, rfl⟩ : ∃ shorter, text = shorter ++ ['e'] := by
        obtain ⟨mark, digits, spelled, _⟩ := cuts.digits
        exact ⟨'0' :: mark :: digits, spelled⟩
      have size : byteLength (shorter ++ ['e']) = byteLength shorter + 1 := byteLength_append _ _
      simp only [size] at scannedLast ⊢
      -- The second lexeme takes the last byte of the first.
      rw [String.toList_ofList, List.dropLast_concat]
      exact .skip blank (.ether cuts name (ih scannedLast))
  | case2 first second rest keeps ih =>
      obtain ⟨blanks, kind, text, after, rfl, blank, longest, rfl, scannedLater⟩ := scanned.uncons
      rw [handBack, if_neg keeps]
      refine .skip blank (.token (.longest longest fun cuts => keeps ?_) (ih scannedLater))
      obtain rfl := (longest_unique longest cuts.longest rfl).1
      obtain ⟨_, _, same, splits⟩ := cuts.splits scannedLater
      cases same
      exact splits
  | case3 found single =>
      rw [handBack.eq_2 found single]
      cases found with
      | nil => exact scanned.nothing
      | cons lexeme later =>
          obtain ⟨blanks, kind, text, after, rfl, blank, longest, rfl, scannedLater⟩ := scanned.uncons
          cases later with
          | cons second rest => exact absurd rfl (single _ second rest)
          | nil =>
              refine .skip blank (.token (.longest longest fun cuts => ?_) scannedLater.nothing)
              obtain ⟨_, _, same, _⟩ := cuts.splits scannedLater
              contradiction

/-- Where a longest token begins that is not cut, it is one of the lexemes. -/
theorem Tokenized.mem_of_longest (tokenized : Tokenized offset (text ++ after) tokens)
    (longest : kind.Longest text after) (whole : ¬ CutsEther text after) :
    ⟨kind, String.ofList text, offset⟩ ∈ tokens := by
  generalize same : text ++ after = chars at tokenized
  cases tokenized with
  | done =>
      obtain ⟨first, phrase, rfl⟩ := spells_cons longest.spells
      contradiction
  | blank isBlank later =>
      obtain ⟨first, phrase, rfl⟩ := spells_cons longest.spells
      cases same
      rw [not_blank longest.spells] at isBlank
      contradiction
  | token cut later =>
      cases cut with
      | longest longestToo _ =>
          obtain ⟨rfl, rfl, _⟩ := longest_unique longest longestToo same
          exact List.mem_cons_self
      | shortened cuts =>
          -- The longest token here is the whole literal, and that one is cut.
          obtain ⟨_, rfl, rfl⟩ := longest_unique longest cuts.longest (by simpa using same)
          exact absurd cuts whole

theorem Tokenized.locate (tokenized : Tokenized offset chars tokens) (member : lexeme ∈ tokens) :
    ∃ before after later, chars = before ++ (lexeme.text.toList ++ after) ∧
      lexeme.start = offset + byteLength before ∧ Cut lexeme.token lexeme.text.toList after ∧
      Tokenized lexeme.stop after later ∧ ∀ other ∈ later, other ∈ tokens := by
  induction tokenized with
  | done => contradiction
  | @blank offset first rest found isBlank tokenized ih =>
      obtain ⟨before, after, later, rfl, start, facts⟩ := ih member
      exact ⟨first :: before, after, later, rfl, by rw [start]; exact Nat.add_assoc _ _ _, facts⟩
  | @token offset kind text after found cut tokenized ih =>
      rcases List.mem_cons.mp member with rfl | member
      · refine ⟨[], after, found, ?_, rfl, ?_, ?_, fun other => List.mem_cons_of_mem _⟩
        · rw [String.toList_ofList, List.nil_append]
        · rwa [String.toList_ofList]
        · rwa [Lexeme.stop, utf8ByteSize_ofList]
      · obtain ⟨before, after, later, rfl, start, cut, tokenizedLater, all⟩ := ih member
        refine ⟨text ++ before, after, later, (List.append_assoc _ _ _).symm, ?_, cut,
          tokenizedLater, fun other member => List.mem_cons_of_mem _ (all other member)⟩
        rw [start, byteLength_append, Nat.add_assoc]

/-- What lies in no lexeme is blank. -/
theorem Tokenized.blank_between (tokenized : Tokenized offset (before ++ first :: rest) tokens)
    (outside : ∀ lexeme ∈ tokens, offset + byteLength before < lexeme.start ∨
      lexeme.stop ≤ offset + byteLength before) : isSpace first = true := by
  generalize same : before ++ first :: rest = chars at tokenized
  induction tokenized generalizing before with
  | done => simp at same
  | @blank offset head tail found isBlank later ih =>
      cases before with
      | nil =>
          obtain ⟨rfl, _⟩ := List.cons.inj same
          exact isBlank
      | cons head before =>
          obtain ⟨rfl, shorter⟩ := List.cons.inj same
          refine ih (fun lexeme member => ?_) shorter
          have apart := outside lexeme member
          rwa [Nat.add_assoc]
  | @token offset kind text after found cut later ih =>
      -- The character comes after this lexeme, since it does not lie within.
      obtain ⟨between, rfl, split⟩ : ∃ between, before = text ++ between ∧
          after = between ++ first :: rest := by
        rcases List.append_eq_append_iff.mp same with ⟨inside, rfl, split⟩ | beyond
        · cases inside with
          | nil => exact ⟨[], by simp, split.symm⟩
          | cons head inside =>
              have apart := outside _ List.mem_cons_self
              have some := byteLength_cons_pos head inside
              simp only [Lexeme.stop, utf8ByteSize_ofList, byteLength_append] at apart
              omega
        · exact beyond
      refine ih (fun lexeme member => ?_) split.symm
      have apart := outside lexeme (List.mem_cons_of_mem _ member)
      rwa [byteLength_append, ← Nat.add_assoc] at apart

theorem Cut.longest_or_ether (cut : Cut kind text after) (tokenized : Tokenized offset after tokens) :
    kind.Longest text after ∧ ¬ CutsEther text after ∨
      kind = .hex ∧ ⟨.name, "ether", offset⟩ ∈ tokens ∧
        ∃ rest, after = 'e' :: rest ∧ CutsEther (text ++ ['e']) rest := by
  cases cut with
  | longest longest whole => exact .inl ⟨longest, whole⟩
  | @shortened _ rest cuts =>
      obtain ⟨left, rfl, name⟩ := cuts.name
      have ether : Token.name.Longest ['e', 't', 'h', 'e', 'r'] left := ether_longest name
      have member := tokenized.mem_of_longest ether (not_cutsEther ether nofun)
      exact .inr ⟨rfl, member, _, rfl, cuts⟩

end

/-- The lexemes of a source: longest tokens, but for an `ether` that they would cut, and blanks
between them. -/
structure Tokenization (source : String) (tokens : List Lexeme) : Prop where
  ordered : Ordered 0 source.utf8ByteSize tokens
  placed : ∀ lexeme ∈ tokens, ∃ before after,
    source.toList = before ++ (lexeme.text.toList ++ after) ∧ byteLength before = lexeme.start ∧
    lexeme.token.Spells lexeme.text.toList ∧
    (lexeme.token.Longest lexeme.text.toList after ∧ ¬ CutsEther lexeme.text.toList after ∨
      lexeme.token = .hex ∧ ⟨.name, "ether", lexeme.stop⟩ ∈ tokens ∧
        ∃ rest, after = 'e' :: rest ∧ CutsEther (lexeme.text.toList ++ ['e']) rest)
  blank : ∀ before c after, source.toList = before ++ c :: after →
    (∀ lexeme ∈ tokens, byteLength before < lexeme.start ∨ lexeme.stop ≤ byteLength before) →
    c = ' ' ∨ c = '\t' ∨ c = '\r' ∨ c = '\n' ∨ c = '\x0c'

variable {source : String} {tokens : List Lexeme}

theorem lexemes_tokenized (lexed : lexemes source = .ok tokens) :
    Tokenized 0 source.toList tokens := by
  unfold lexemes at lexed
  split at lexed
  · rename_i found scanned
    cases lexed
    exact (scan_eq_ok_iff.mp scanned).tokenized
  · contradiction

theorem lexemes_tokenization (lexed : lexemes source = .ok tokens) :
    Tokenization source tokens := by
  have tokenized := lexemes_tokenized lexed
  refine ⟨lexemes_ordered lexed, fun lexeme member => ?_, fun before c after split outside => ?_⟩
  · obtain ⟨before, after, later, split, start, cut, tokenizedLater, all⟩ := tokenized.locate member
    have spelled := lexemes_spelled lexed lexeme member
    refine ⟨before, after, split, by rw [start, Nat.zero_add], spelled, ?_⟩
    rcases cut.longest_or_ether tokenizedLater with whole | ⟨isHex, ether, cuts⟩
    · exact .inl whole
    · exact .inr ⟨isHex, all _ ether, cuts⟩
  · rw [split] at tokenized
    exact isSpace_cases (tokenized.blank_between (by simpa using outside))

/-- The lexer finds longest tokens, mends an `ether` that they cut, and leaves out blanks only; it
fails exactly where it comes to a character that is no blank and begins no token. -/
theorem lexemes_longest (source : String) :
    (∀ tokens, lexemes source = .ok tokens → Tokenization source tokens) ∧
    (∀ error, lexemes source = .error error ↔ ∃ offset first rest,
      StuckAt source offset first rest ∧
      error = .atOffset source offset (.unreadable (unreadableText first rest))) ∧
    ∀ offset first rest, StuckAt source offset first rest →
      (Location.ofOffset source offset).offset = offset := by
  refine ⟨fun tokens lexed => lexemes_tokenization lexed, fun error => lexemes_eq_error_iff,
    fun offset first rest stuck => ?_⟩
  exact Nat.min_eq_left (Nat.le_of_lt stuck.lt)

theorem lexemes_longest_ether :
    let tokens : List Lexeme := [⟨.hex, "0xe", 0⟩, ⟨.name, "ether", 3⟩, ⟨.mark .lessEqual, "<=", 9⟩,
      ⟨.string, "'é'", 12⟩]
    lexemes "0xeether <= 'é'" = .ok tokens ∧ Tokenization "0xeether <= 'é'" tokens ∧
      ∃ first rest, StuckAt "'é' €" 5 first rest := by
  intro tokens
  have lexed : lexemes "0xeether <= 'é'" = .ok tokens := by cbv
  have failed : lexemes "'é' €" = .error ⟨.unreadable "€", some ⟨5, 1, 5⟩⟩ := by cbv
  obtain ⟨offset, first, rest, stuck, same⟩ := ((lexemes_longest "'é' €").2.1 _).mp failed
  have place : (Location.ofOffset "'é' €" offset).offset = offset :=
    (lexemes_longest "'é' €").2.2 offset first rest stuck
  obtain ⟨_, located⟩ := ParseError.mk.inj same
  rw [← Option.some.inj located] at place
  obtain rfl : 5 = offset := place
  exact ⟨lexed, (lexemes_longest "0xeether <= 'é'").1 tokens lexed, first, rest, stuck⟩

end Lexer

end EtherCalc
