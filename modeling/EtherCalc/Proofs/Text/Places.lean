import EtherCalc.Proofs.Text.Lines
import Mathlib

/-!
Places of a text in the order in which they are read.

An offset between two characters has a line and a column of its own, and a later one has later
ones.  An offset inside a character has no characters before it that fill it, and is shown as the
end of the text.  So the order of two offsets is that of their places unless the first one is inside
a character and the second one is not, and not at the end either.
-/

namespace EtherCalc

namespace Location

/-- The line and the column, in the order in which a text is read. -/
def place (location : Location) : ℕ ×ₗ ℕ :=
  toLex (location.line, location.column)

/-- The offset is inside a character of the source. -/
def Splits (source : String) (offset : Nat) : Prop :=
  offset < source.utf8ByteSize ∧ ¬ (String.Pos.Raw.mk offset).IsValid source

variable {source : String} {offset first second : Nat} {chars before more rest : List Char}

theorem isValid_iff : (String.Pos.Raw.mk offset).IsValid source ↔
    ∃ before rest, source.toList = before ++ rest ∧ byteLength before = offset := by
  rw [String.Pos.Raw.isValid_iff_exists_append]
  constructor
  · rintro ⟨before, rest, rfl, place⟩
    refine ⟨before.toList, rest.toList, String.toList_append, ?_⟩
    rw [Lexer.byteLength_toList]
    exact (congrArg String.Pos.Raw.byteIdx place).symm
  · rintro ⟨before, rest, split, rfl⟩
    refine ⟨String.ofList before, String.ofList rest, ?_, ?_⟩
    · rw [← String.ofList_append, ← split, String.ofList_toList]
    · rw [← String.toList_ofList (l := before), Lexer.byteLength_toList, String.ofList_toList]
      rfl

/-- What ends between two characters is filled by the characters before. -/
theorem charsBefore_eq_some : charsBefore offset chars = some before ↔
    ∃ rest, chars = before ++ rest ∧ byteLength before = offset := by
  constructor
  · intro filled
    fun_induction charsBefore offset chars generalizing before with
    | case1 chars =>
        cases filled
        exact ⟨chars, rfl, rfl⟩
    | case2 => contradiction
    | case3 => contradiction
    | case4 bytes c rest fits ih =>
        obtain ⟨inner, filledInner, rfl⟩ := Option.map_eq_some_iff.mp filled
        obtain ⟨after, rfl, size⟩ := ih filledInner
        refine ⟨after, rfl, ?_⟩
        have whole : byteLength (c :: inner) = c.utf8Size + byteLength inner := rfl
        omega
  · rintro ⟨rest, rfl, rfl⟩
    exact charsBefore_byteLength

theorem ofOffset_clamped :
    ofOffset source offset = ofOffset source (min offset source.utf8ByteSize) := by
  simp only [ofOffset, Nat.min_assoc, Nat.min_self]

theorem ofOffset_inside (splits : Splits source offset) :
    ofOffset source offset = after offset source.toList := by
  have clamped : min offset source.utf8ByteSize = offset := Nat.min_eq_left (Nat.le_of_lt splits.1)
  have unfilled : charsBefore offset source.toList = none := by
    by_contra filled
    obtain ⟨before, filled⟩ := Option.ne_none_iff_exists'.mp filled
    obtain ⟨rest, split, size⟩ := charsBefore_eq_some.mp filled
    exact splits.2 (isValid_iff.mpr ⟨before, rest, split, size⟩)
  simp only [ofOffset, clamped, unfilled, Option.getD_none]

theorem ofOffset_end :
    ofOffset source source.utf8ByteSize = after source.utf8ByteSize source.toList := by
  rw [← Lexer.byteLength_toList]
  exact ofOffset_eq_after (List.append_nil _).symm

/-- More characters lead to a later place: to a later line if there is a line feed among them, else
to a later column. -/
theorem place_after_append (some : more ≠ []) :
    (after first before).place < (after second (before ++ more)).place := by
  rw [place, place, Prod.Lex.toLex_lt_toLex]
  by_cases feed : '\n' ∈ more
  · left
    have lines : 0 < more.count '\n' := List.count_pos_iff.mpr feed
    simp only [after, List.count_append]
    omega
  · right
    have passes : ∀ c ∈ more.reverse, (c != '\n') = true :=
      passes_line fun member => feed (List.mem_reverse.mp member)
    have longer : 0 < more.length := List.length_pos_iff.mpr some
    constructor
    · simp only [after, List.count_append, List.count_eq_zero.mpr feed, Nat.add_zero]
    · simp only [after, List.reverse_append, List.takeWhile_append_of_pos passes,
        List.length_append, List.length_reverse]
      omega

/-- A text that begins with fewer bytes and with more of them has characters in between. -/
theorem exists_between {before' rest' : List Char} (split : chars = before ++ rest)
    (split' : chars = before' ++ rest') (shorter : byteLength before < byteLength before') :
    ∃ more, more ≠ [] ∧ before' = before ++ more := by
  rcases List.append_eq_append_iff.mp (split.symm.trans split') with
    ⟨more, longer, _⟩ | ⟨more, rfl, _⟩
  · refine ⟨more, ?_, longer⟩
    rintro rfl
    rw [longer, List.append_nil] at shorter
    exact Nat.lt_irrefl _ shorter
  · rw [Lexer.byteLength_append] at shorter
    omega

theorem place_lt_of_isValid (validFirst : (String.Pos.Raw.mk first).IsValid source)
    (validSecond : (String.Pos.Raw.mk second).IsValid source) (less : first < second) :
    (ofOffset source first).place < (ofOffset source second).place := by
  obtain ⟨before, rest, split, rfl⟩ := isValid_iff.mp validFirst
  obtain ⟨before', rest', split', rfl⟩ := isValid_iff.mp validSecond
  obtain ⟨more, some, rfl⟩ := exists_between split split' less
  rw [ofOffset_eq_after split, ofOffset_eq_after split']
  exact place_after_append some

theorem isValid_end : (String.Pos.Raw.mk source.utf8ByteSize).IsValid source :=
  isValid_iff.mpr ⟨source.toList, [], (List.append_nil _).symm, Lexer.byteLength_toList source⟩

theorem place_inside (splits : Splits source offset) :
    (ofOffset source offset).place = (ofOffset source source.utf8ByteSize).place := by
  rw [ofOffset_inside splits, ofOffset_end]
  rfl

/-- An offset is inside a character, at the end or past it, or else at a boundary before the end. -/
theorem offset_cases (source : String) (offset : Nat) :
    Splits source offset ∨ source.utf8ByteSize ≤ offset ∨
      offset < source.utf8ByteSize ∧ (String.Pos.Raw.mk offset).IsValid source := by
  by_cases inside : offset < source.utf8ByteSize
  · by_cases valid : (String.Pos.Raw.mk offset).IsValid source
    · exact .inr (.inr ⟨inside, valid⟩)
    · exact .inl ⟨inside, valid⟩
  · exact .inr (.inl (Nat.le_of_not_lt inside))

theorem place_past (past : source.utf8ByteSize ≤ offset) :
    (ofOffset source offset).place = (ofOffset source source.utf8ByteSize).place := by
  rw [ofOffset_clamped, Nat.min_eq_right past]

/-- Every place is at most the end of the text. -/
theorem place_le_end (offset : Nat) :
    (ofOffset source offset).place ≤ (ofOffset source source.utf8ByteSize).place := by
  rcases offset_cases source offset with splits | past | ⟨inside, valid⟩
  · exact le_of_eq (place_inside splits)
  · exact le_of_eq (place_past past)
  · exact le_of_lt (place_lt_of_isValid valid isValid_end inside)

theorem place_le_iff (le : first ≤ second) :
    (ofOffset source first).place ≤ (ofOffset source second).place ↔
      ¬ Splits source first ∨ Splits source second ∨ source.utf8ByteSize ≤ second := by
  rcases offset_cases source second with splits | past | ⟨inside, valid⟩
  · rw [place_inside splits]
    exact ⟨fun _ => .inr (.inl splits), fun _ => place_le_end first⟩
  · rw [place_past past]
    exact ⟨fun _ => .inr (.inr past), fun _ => place_le_end first⟩
  · have before := place_lt_of_isValid valid isValid_end inside
    have other : ¬ (Splits source second ∨ source.utf8ByteSize ≤ second) := by
      rintro (splits | past)
      · exact splits.2 valid
      · exact Nat.not_lt_of_le past inside
    rcases offset_cases source first with splits | past | ⟨_, validFirst⟩
    · rw [place_inside splits]
      exact ⟨fun le => absurd before (not_lt_of_ge le), fun either =>
        either.elim (absurd splits) fun either => absurd either other⟩
    · omega
    · refine ⟨fun _ => .inl fun splits => splits.2 validFirst, fun _ => ?_⟩
      rcases Nat.eq_or_lt_of_le le with rfl | less
      · exact le_refl _
      · exact le_of_lt (place_lt_of_isValid validFirst valid less)

/-- The offset is kept within the source.  A later offset has a later place, or the same one, unless
the earlier offset is inside a character, for which the end of the text stands, and the later one is
at a boundary before the end.  Different boundaries have different places. -/
theorem offsets_ordered (source : String) :
    (∀ offset, (ofOffset source offset).offset = min offset source.utf8ByteSize) ∧
    (∀ first second, first ≤ second →
      ((ofOffset source first).place ≤ (ofOffset source second).place ↔
        ¬ Splits source first ∨ Splits source second ∨ source.utf8ByteSize ≤ second)) ∧
    (∀ first second, (String.Pos.Raw.mk first).IsValid source →
      (String.Pos.Raw.mk second).IsValid source → first < second →
        (ofOffset source first).place < (ofOffset source second).place) ∧
    ∀ offset, Splits source offset →
      (ofOffset source offset).place = (ofOffset source source.utf8ByteSize).place :=
  ⟨fun _ => rfl, fun _ _ => place_le_iff, fun _ _ => place_lt_of_isValid, fun _ => place_inside⟩

theorem offsets_ordered_boundaries :
    let source := "é\nab"
    (ofOffset source 0).place ≤ (ofOffset source 1).place ∧
      (ofOffset source 2).place < (ofOffset source 3).place ∧
      (ofOffset source 1).place = (ofOffset source 5).place ∧
      (ofOffset source 99).offset = 5 := by
  intro source
  obtain ⟨clamped, ordered, strict, inside⟩ := offsets_ordered source
  have splits : Splits source 1 := ⟨by decide, by decide⟩
  have valid : (String.Pos.Raw.mk 0).IsValid source := by decide
  refine ⟨?_, strict 2 3 (by decide) (by decide) (by decide), inside 1 splits, clamped 99⟩
  exact (ordered 0 1 (by decide)).mpr (.inl fun splits => splits.2 valid)

/-- The first byte of the first line is shown as the end of the second line, because it is inside a
character, and the byte after it as the second column of the first line. -/
theorem offsets_ordered_broken :
    let source := "é\nab"
    ofOffset source 1 = ⟨1, 2, 3⟩ ∧ ofOffset source 2 = ⟨2, 1, 2⟩ ∧
      ¬ (ofOffset source 1).place ≤ (ofOffset source 2).place := by
  have inside : ofOffset "é\nab" 1 = ⟨1, 2, 3⟩ := by cbv
  have boundary : ofOffset "é\nab" 2 = ⟨2, 1, 2⟩ := by cbv
  refine ⟨inside, boundary, ?_⟩
  rw [inside, boundary, place, place, Prod.Lex.toLex_le_toLex]
  decide

end Location

end EtherCalc
