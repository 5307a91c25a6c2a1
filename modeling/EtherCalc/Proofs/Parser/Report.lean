import EtherCalc.EvalError
import EtherCalc.Proofs.Lexer.Tokenization
import EtherCalc.Proofs.Parser.ViablePrefix
import EtherCalc.Proofs.Text.Lines

namespace EtherCalc

/-- The error points at a place of its source and is shown with the line that holds the place:
the source is what stands above the line, the line up to the place and from the place on, and what
stands below. -/
structure ParseError.Shown (error : ParseError) (source : String) (location : Location)
    (above lead tail below : List Char) : Prop where
  located : error.location = some location
  split : source.toList = above ++ lead ++ (tail ++ below)
  isLine : IsLine above (lead ++ tail) below
  offset : location.offset = byteLength (above ++ lead)
  line : location.line = (above ++ lead).count '\n' + 1
  column : location.column = lead.length + 1
  report : EvalError.report source (.parse error) =
    "error: " ++ (EvalError.parse error).message ++
    "\n  " ++ String.ofList (lead ++ tail) ++
    "\n  " ++ String.ofList (List.replicate lead.length ' ') ++ "^"

namespace Parser

variable {limit : Nat} {source : String} {error : ParseError} {tokens : List Lexeme}
variable {before rest : List Char}

theorem exists_shown (split : source.toList = before ++ rest)
    (solid : ∀ c ∈ rest.head?, Lexer.isSpace c = false)
    (isAt : error.IsAt source (byteLength before)) :
    ∃ location above lead tail below, error.Shown source location above lead tail below ∧
      before = above ++ lead ∧ rest = tail ++ below ∧ tail.head? = rest.head? := by
  obtain ⟨above, lead, rfl, starts, single⟩ := exists_lineStart before
  have noLineEnd : ∀ c ∈ rest.head?, c ≠ '\r' ∧ c ≠ '\n' := by
    intro c member
    have other := solid c member
    constructor <;> rintro rfl <;> contradiction
  obtain ⟨tail, below, rfl, isLine, next, shown⟩ := lineText_holds starts single split noLineEnd
  have located : error.location = some (.after (byteLength (above ++ lead)) (above ++ lead)) := by
    rw [isAt, ofOffset_eq_after split]
  refine ⟨_, above, lead, tail, below, ⟨located, split, isLine, rfl, rfl, starts.column single, ?_⟩,
    rfl, rfl, next⟩
  have column := starts.column single
  simp only [EvalError.report, EvalError.location?, located, EvalError.excerpt, column]
  simp only [Location.after, shown, Nat.add_sub_cancel, String.append_assoc]

/-- Where the parser and the lexer report an error: at the end of the source, at a lexeme, or at
a character that cannot be read. -/
inductive FaultAt (source : String) (offset : Nat) : List Char → Prop where
  | sourceEnd (place : offset = source.utf8ByteSize) : FaultAt source offset []
  | lexeme {tokens : List Lexeme} {found : Lexeme} {first : Char} {phrase rest : List Char}
      (lexed : lexemes source = .ok tokens) (member : found ∈ tokens)
      (place : offset = found.start) (text : found.text.toList = first :: phrase) :
      FaultAt source offset (first :: rest)
  | unreadable {first : Char} {rest : List Char}
      (stuck : Lexer.StuckAt source offset first rest) : FaultAt source offset (first :: rest)

theorem parse_error_place (failed : parse limit source = .error error) :
    ∃ before rest, source.toList = before ++ rest ∧ error.IsAt source (byteLength before) ∧
      FaultAt source (byteLength before) rest := by
  cases lexed : lexemes source with
  | error unreadable =>
      obtain ⟨offset, first, rest, stuck, rfl⟩ := Lexer.lexemes_eq_error_iff.mp lexed
      simp only [parse, lexed] at failed
      cases failed
      obtain ⟨before, split, place⟩ := stuck.reached.split
      rw [Nat.zero_add] at place
      subst place
      exact ⟨before, _, split, rfl, .unreadable stuck⟩
  | ok tokens =>
      -- Too deep a nesting included, a refusal leaves some of the lexemes or none.
      obtain ⟨rest, refused, isAt⟩ := (parse_eq_error lexed).mp failed
      have inside := parseTokens_suffix refused
      cases rest with
      | nil =>
          have whole : byteLength source.toList = source.utf8ByteSize := Lexer.byteLength_toList source
          refine ⟨source.toList, [], (List.append_nil _).symm, ?_, .sourceEnd whole⟩
          rw [whole]
          exact isAt
      | cons found rest =>
          have member : found ∈ tokens := inside.subset List.mem_cons_self
          obtain ⟨before, after, split, place, spelled, _⟩ :=
            (Lexer.lexemes_tokenization lexed).placed found member
          obtain ⟨first, phrase, text⟩ := Lexer.spells_cons spelled
          refine ⟨before, _, split, ?_, ?_⟩
          · rw [place]
            exact isAt
          · rw [text]
            exact .lexeme lexed member place text

theorem FaultAt.solid {offset : Nat} (fault : FaultAt source offset rest) :
    ∀ c ∈ rest.head?, Lexer.isSpace c = false := by
  cases fault with
  | sourceEnd => nofun
  | lexeme lexed member place text =>
      have spelled := lexemes_spelled lexed _ member
      rw [text] at spelled
      simpa using Lexer.not_blank spelled
  | unreadable stuck => simpa using stuck.solid

/-- A line that holds the end of the source is empty if nothing or a line feed comes before. -/
theorem lead_eq_nil {above lead : List Char} (single : '\n' ∉ lead)
    (ends : above ++ lead = [] ∨ (above ++ lead).getLast? = some '\n') : lead = [] := by
  rcases List.eq_nil_or_concat lead with rfl | ⟨more, last, rfl⟩
  · rfl
  · rcases ends with none | feed
    · simp at none
    · have same : last = '\n' := by simpa using feed
      simp [same] at single

/-- Whatever makes the parser fail, it points at the end of the source, at a lexeme or at an
unreadable character, and that place is shown in its line with the caret under it. -/
theorem parse_error_shown (failed : parse limit source = .error error) :
    ∃ location above lead tail below, error.Shown source location above lead tail below ∧
      FaultAt source location.offset (tail ++ below) ∧
      (location.offset < source.utf8ByteSize → tail ≠ []) ∧
      (location.offset = source.utf8ByteSize → tail = [] ∧ below = [] ∧
        (source.toList = [] ∨ source.toList.getLast? = some '\n' → lead = [])) := by
  obtain ⟨before, rest, split, isAt, fault⟩ := parse_error_place failed
  obtain ⟨location, above, lead, tail, below, shown, rfl, rfl, next⟩ :=
    exists_shown split fault.solid isAt
  have size : source.utf8ByteSize = location.offset + byteLength (tail ++ below) := by
    rw [← Lexer.byteLength_toList, split, Lexer.byteLength_append, ← shown.offset]
  rw [← shown.offset] at fault
  refine ⟨location, above, lead, tail, below, shown, fault, ?_, ?_⟩
  · rintro inside rfl
    obtain rfl : below = [] := List.head?_eq_none_iff.mp next.symm
    have nothing : byteLength ([] ++ []) = 0 := rfl
    omega
  · intro atEnd
    have none : tail ++ below = [] := Lexer.byteLength_eq_zero (by omega)
    obtain ⟨rfl, rfl⟩ := List.append_eq_nil_iff.mp none
    refine ⟨rfl, rfl, fun ends => ?_⟩
    rw [split, List.append_nil, List.append_nil] at ends
    exact lead_eq_nil (fun feed => shown.isLine.single (List.mem_append_left _ feed)) ends

/-- A parenthesis that nothing opens, after a string that goes over a line end. -/
theorem parse_error_shown_trailing :
    let source := "a +\r\n'é\r\nü' )"
    let error : ParseError := ⟨.trailing (.mark .closeParen), some ⟨14, 3, 4⟩⟩
    parse 1 source = .error error ∧ ∃ above lead tail below,
      error.Shown source ⟨14, 3, 4⟩ above lead tail below ∧ lead.length = 3 ∧ tail ≠ [] := by
  intro source error
  have failed : parse 1 source = .error error := by cbv
  obtain ⟨location, above, lead, tail, below, shown, _, inside, _⟩ := parse_error_shown failed
  obtain rfl : ⟨14, 3, 4⟩ = location := Option.some.inj shown.located
  have column : 4 = lead.length + 1 := shown.column
  have size : source.utf8ByteSize = 15 := by cbv
  have within : 14 < source.utf8ByteSize := by rw [size]; decide
  exact ⟨failed, above, lead, tail, below, shown, by omega, inside within⟩

end Parser

end EtherCalc
