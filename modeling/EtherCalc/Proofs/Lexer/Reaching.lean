import EtherCalc.Proofs.Lexer.Longest
import EtherCalc.Proofs.Lexer.Order

namespace EtherCalc.Lexer

/-- Over blanks and longest tokens one comes from a place in a text to another. -/
inductive Reaches : Nat → List Char → Nat → List Char → Prop where
  | here {offset : Nat} {chars : List Char} : Reaches offset chars offset chars
  | blank {offset place : Nat} {first : Char} {rest left : List Char}
      (isBlank : isSpace first = true)
      (later : Reaches (offset + first.utf8Size) rest place left) :
      Reaches offset (first :: rest) place left
  | token {offset place : Nat} {kind : Token} {text after left : List Char}
      (longest : kind.Longest text after)
      (later : Reaches (offset + byteLength text) after place left) :
      Reaches offset (text ++ after) place left

/-- Blanks and longest tokens lead to an offset of the source at which there is neither. -/
structure StuckAt (source : String) (offset : Nat) (first : Char) (rest : List Char) : Prop where
  reached : Reaches 0 source.toList offset (first :: rest)
  solid : isSpace first = false
  unreadable : ∀ (kind : Token) (text after : List Char),
    first :: rest = text ++ after → ¬ kind.Spells text

variable {offset place length : Nat} {first : Char} {chars text after left rest : List Char}
variable {kind : Token} {stop : Stop} {source : String} {error : ParseError}

theorem take_append_drop_cons : first :: rest.take length ++ rest.drop length = first :: rest := by
  rw [List.cons_append, List.take_append_drop]

theorem Reaches.split (reaches : Reaches offset chars place left) :
    ∃ before, chars = before ++ left ∧ place = offset + byteLength before := by
  induction reaches with
  | here => exact ⟨[], rfl, rfl⟩
  | @blank offset place first rest left isBlank later ih =>
      obtain ⟨before, rfl, rfl⟩ := ih
      exact ⟨first :: before, rfl, Nat.add_assoc _ _ _⟩
  | @token offset place kind text after left longest later ih =>
      obtain ⟨before, rfl, rfl⟩ := ih
      exact ⟨text ++ before, (List.append_assoc _ _ _).symm, by
        rw [byteLength_append, Nat.add_assoc]⟩

theorem scan_blank (isBlank : isSpace first = true) :
    scan offset (first :: rest) = scan (offset + first.utf8Size) rest := by
  rw [scan, if_pos isBlank]

theorem scan_token (longest : kind.Longest text after) :
    scan offset (text ++ after) = (scan (offset + byteLength text) after).map
      (⟨kind, String.ofList text, offset⟩ :: ·) := by
  obtain ⟨first, phrase, rfl⟩ := spells_cons longest.spells
  obtain ⟨length, cut, taken, left⟩ := tokenAt?_of_longest longest
  have solid : isSpace first = false := not_blank longest.spells
  rw [List.cons_append, scan, if_neg (Bool.eq_false_iff.mp solid)]
  simp only [cut, taken, left]
  cases scan (offset + byteLength (first :: phrase)) after <;> rfl

theorem scan_stuck (solid : isSpace first = false) (none : tokenAt? first rest = none) :
    scan offset (first :: rest) = .error ⟨offset, unreadableText first rest⟩ := by
  rw [scan, if_neg (Bool.eq_false_iff.mp solid)]
  simp only [none]

/-- The scan fails where it comes to something that is neither blank nor begins with a token. -/
theorem scan_eq_error_iff : scan offset chars = .error stop ↔
    ∃ first rest, Reaches offset chars stop.offset (first :: rest) ∧ isSpace first = false ∧
      tokenAt? first rest = none ∧ stop.text = unreadableText first rest := by
  constructor
  · intro failed
    induction offset, chars using scan.induct with
    | case1 offset =>
        rw [scan] at failed
        contradiction
    | case2 offset first rest isBlank ih =>
        rw [scan_blank isBlank] at failed
        obtain ⟨head, tail, reaches, stuck⟩ := ih failed
        exact ⟨head, tail, .blank isBlank reaches, stuck⟩
    | case3 offset first rest solid none =>
        have solid := Bool.eq_false_iff.mpr solid
        rw [scan_stuck solid none] at failed
        cases failed
        exact ⟨first, rest, .here, solid, none, rfl⟩
    | case4 offset first rest solid token length cut text stop' failedLater ih =>
        have longest := tokenAt?_longest cut
        have whole : first :: rest = text ++ rest.drop length := take_append_drop_cons.symm
        rw [whole, scan_token longest, failedLater] at failed
        cases failed
        obtain ⟨head, tail, reaches, stuck⟩ := ih failedLater
        rw [whole]
        exact ⟨head, tail, .token longest reaches, stuck⟩
    | case5 offset first rest solid token length cut text lexemes scanned =>
        have longest := tokenAt?_longest cut
        have whole : first :: rest = text ++ rest.drop length := take_append_drop_cons.symm
        rw [whole, scan_token longest, scanned] at failed
        contradiction
  · rintro ⟨first, rest, reaches, solid, none, text⟩
    generalize place : stop.offset = offset', remains : first :: rest = left at reaches
    induction reaches with
    | here =>
        subst place remains
        rw [scan_stuck solid none, ← text]
    | blank isBlank later ih => rw [scan_blank isBlank, ih place remains]
    | token longest later ih =>
        rw [scan_token longest, ih place remains]
        rfl

theorem lexemes_eq_error_iff : lexemes source = .error error ↔
    ∃ offset first rest, StuckAt source offset first rest ∧
      error = .atOffset source offset (.unreadable (unreadableText first rest)) := by
  have stopped : lexemes source = .error error ↔ ∃ stop, scan 0 source.toList = .error stop ∧
      error = .atOffset source stop.offset (.unreadable stop.text) := by
    unfold lexemes
    cases scan 0 source.toList <;> simp [eq_comm]
  rw [stopped]
  constructor
  · rintro ⟨stop, failed, rfl⟩
    obtain ⟨first, rest, reached, solid, none, text⟩ := scan_eq_error_iff.mp failed
    exact ⟨stop.offset, first, rest, ⟨reached, solid, tokenAt?_eq_none_iff.mp none⟩, by rw [text]⟩
  · rintro ⟨offset, first, rest, stuck, rfl⟩
    refine ⟨⟨offset, unreadableText first rest⟩, scan_eq_error_iff.mpr ?_, rfl⟩
    exact ⟨first, rest, stuck.reached, stuck.solid, tokenAt?_eq_none_iff.mpr stuck.unreadable, rfl⟩

theorem StuckAt.lt (stuck : StuckAt source offset first rest) : offset < source.utf8ByteSize := by
  obtain ⟨before, split, place⟩ := stuck.reached.split
  have some := byteLength_cons_pos first rest
  rw [place, Nat.zero_add, ← byteLength_toList, split, byteLength_append]
  omega

end EtherCalc.Lexer
