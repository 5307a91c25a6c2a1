import EtherCalc.Proofs.Lexer.Order

namespace EtherCalc

/-- A line begins after these characters. -/
def LineStart (above : List Char) : Prop :=
  above = [] ∨ ∃ before, above = before ++ ['\n']

/-- A line ends before these characters: at the end of the text, or at a line feed with or without
a carriage return. -/
inductive LineEnd (line : List Char) : List Char → Prop where
  | text : LineEnd line []
  | both {below : List Char} : LineEnd line ('\r' :: '\n' :: below)
  | feed {below : List Char} (plain : line.getLast? ≠ some '\r') : LineEnd line ('\n' :: below)

/-- What stands between two line ends. -/
structure IsLine (above line below : List Char) : Prop where
  starts : LineStart above
  single : '\n' ∉ line
  ends : LineEnd line below

section

variable {above lead rest chars before : List Char} {source : String}

theorem charsBefore_byteLength :
    charsBefore (byteLength before) (before ++ rest) = some before := by
  induction before with
  | nil => exact charsBefore.eq_1 rest
  | cons c before ih =>
      have whole : byteLength (c :: before) = c.utf8Size + byteLength before := rfl
      obtain ⟨bytes, isSucc⟩ := Nat.exists_eq_add_one.mpr (Lexer.byteLength_cons_pos c before)
      rw [isSucc, List.cons_append, charsBefore, ← isSucc, whole, if_neg (by omega)]
      rw [Nat.add_sub_cancel_left, ih]
      rfl

/-- The characters before a place give its line and column. -/
theorem ofOffset_eq_after (split : source.toList = before ++ rest) :
    Location.ofOffset source (byteLength before) = Location.after (byteLength before) before := by
  have clamped : min (byteLength before) source.utf8ByteSize = byteLength before := by
    rw [← Lexer.byteLength_toList, split, Lexer.byteLength_append]
    omega
  simp only [Location.ofOffset, clamped]
  rw [split, charsBefore_byteLength, Option.getD_some]

theorem exists_lineStart (before : List Char) :
    ∃ above lead, before = above ++ lead ∧ LineStart above ∧ '\n' ∉ lead := by
  induction before with
  | nil => exact ⟨[], [], rfl, .inl rfl, List.not_mem_nil⟩
  | cons c before ih =>
      obtain ⟨above, lead, rfl, starts, single⟩ := ih
      rcases starts with rfl | ⟨lines, rfl⟩
      · by_cases feed : c = '\n'
        · exact ⟨['\n'], lead, by rw [feed]; rfl, .inr ⟨[], rfl⟩, single⟩
        · exact ⟨[], c :: lead, rfl, .inl rfl, by simp [single, Ne.symm feed]⟩
      · exact ⟨c :: lines ++ ['\n'], lead, rfl, .inr ⟨c :: lines, rfl⟩, single⟩

theorem passes_line (single : '\n' ∉ lead) : ∀ c ∈ lead, (c != '\n') = true := by
  intro c member
  exact bne_iff_ne.mpr fun feed => single (feed ▸ member)

theorem LineStart.column (starts : LineStart above) (single : '\n' ∉ lead) :
    (Location.after (byteLength (above ++ lead)) (above ++ lead)).column = lead.length + 1 := by
  have passes : ∀ c ∈ lead.reverse, (c != '\n') = true :=
    passes_line fun member => single (List.mem_reverse.mp member)
  have stops : ∀ c ∈ above.reverse.head?, (c != '\n') = false := by
    rcases starts with rfl | ⟨lines, rfl⟩ <;> simp
  simp only [Location.after, List.reverse_append]
  rw [Lexer.takeWhile_stops passes stops, List.length_reverse]

theorem skipLines_feed {count : Nat} : skipLines (count + 1) ('\n' :: chars) = skipLines count chars := by
  simp [skipLines]

theorem skipLines_other {count : Nat} {c : Char} (other : c ≠ '\n') :
    skipLines (count + 1) (c :: chars) = skipLines (count + 1) chars := by
  simp [skipLines, other]

/-- After as many line feeds as there are above a line, the line is left. -/
theorem LineStart.skipLines (starts : LineStart above) :
    skipLines (above.count '\n') (above ++ rest) = rest := by
  rcases starts with rfl | ⟨lines, rfl⟩
  · rfl
  · induction lines with
    | nil => exact skipLines_feed
    | cons c lines ih =>
        by_cases feed : c = '\n'
        · subst feed
          rw [List.cons_append, List.count_cons_self, List.cons_append, skipLines_feed, ih]
        · have some : (lines ++ ['\n']).count '\n' = lines.count '\n' + 1 := by simp
          rw [List.cons_append, List.count_cons_of_ne feed, some, List.cons_append,
            skipLines_other feed, ← some, ih]

/-- A text is one line, or has a line feed after its first one. -/
theorem exists_feed (chars : List Char) : '\n' ∉ chars ∨
    ∃ line below, chars = line ++ '\n' :: below ∧ '\n' ∉ line := by
  by_cases feed : '\n' ∈ chars
  · obtain ⟨line, below, split, single⟩ := List.eq_append_cons_of_mem feed
    exact .inr ⟨line, below, split, single⟩
  · exact .inl feed

theorem firstLine_single (single : '\n' ∉ chars) : firstLine chars = chars := by
  have whole : chars.takeWhile (· != '\n') = chars :=
    List.takeWhile_eq_self_iff.mpr (passes_line single)
  simp [firstLine, whole]

theorem firstLine_feed (single : '\n' ∉ chars) : firstLine (chars ++ '\n' :: rest) =
    if chars.getLast? = some '\r' then chars.dropLast else chars := by
  have whole : (chars ++ '\n' :: rest).takeWhile (· != '\n') = chars :=
    Lexer.takeWhile_stops (passes_line single) (by simp)
  simp [firstLine, whole]

/-- The first line of a text, and the line end after it. -/
theorem exists_lineEnd (chars : List Char) :
    ∃ below, chars = firstLine chars ++ below ∧ '\n' ∉ firstLine chars ∧
      LineEnd (firstLine chars) below := by
  rcases exists_feed chars with single | ⟨line, below, rfl, single⟩
  · rw [firstLine_single single]
    exact ⟨[], (List.append_nil _).symm, single, .text⟩
  · rw [firstLine_feed single]
    split
    · rename_i last
      obtain ⟨line, rfl⟩ := List.getLast?_eq_some_iff.mp last
      rw [List.dropLast_concat]
      refine ⟨'\r' :: '\n' :: below, by simp, fun member => single ?_, .both⟩
      exact List.mem_append_left _ member
    · rename_i plain
      exact ⟨'\n' :: below, rfl, single, .feed plain⟩

/-- The line that is shown for a place holds it: what has been read of the line begins it, and if
the place is not at the end, the line goes on with what is there. -/
theorem lineText_holds (starts : LineStart above) (single : '\n' ∉ lead)
    (split : source.toList = above ++ lead ++ rest) (solid : ∀ c ∈ rest.head?, c ≠ '\r' ∧ c ≠ '\n') :
    ∃ tail below, rest = tail ++ below ∧ IsLine above (lead ++ tail) below ∧
      tail.head? = rest.head? ∧
      lineText source ((above ++ lead).count '\n' + 1) = String.ofList (lead ++ tail) := by
  obtain ⟨below, whole, singleLine, ends⟩ := exists_lineEnd (lead ++ rest)
  have noFeed : lead.count '\n' = 0 := List.count_eq_zero.mpr single
  have shown : lineText source ((above ++ lead).count '\n' + 1) =
      String.ofList (firstLine (lead ++ rest)) := by
    rw [lineText, Nat.add_sub_cancel, List.count_append, noFeed, Nat.add_zero, split,
      List.append_assoc, starts.skipLines]
  generalize firstLine (lead ++ rest) = line at whole singleLine ends shown
  obtain ⟨tail, rfl, rfl⟩ : ∃ tail, line = lead ++ tail ∧ rest = tail ++ below := by
    rcases List.append_eq_append_iff.mp whole with inside | ⟨extra, rfl, begins⟩
    · exact inside
    · cases extra with
      | nil => exact ⟨[], by simp, begins.symm⟩
      | cons c extra =>
          -- The line would end before the place, and there is no line feed up to there.
          rcases ends with _ | _ | _
          · contradiction
          · cases extra with
            | nil =>
                cases begins
                exact absurd rfl (solid '\n' rfl).2
            | cons c extra =>
                cases begins
                simp at single
          · cases begins
            simp at single
  refine ⟨tail, below, rfl, ⟨starts, singleLine, ends⟩, ?_, shown⟩
  cases tail with
  | cons c tail => rfl
  | nil =>
      -- Where the line ends at the place, the text does too.
      cases ends with
      | text => rfl
      | both => exact absurd rfl (solid '\r' rfl).1
      | feed plain => exact absurd rfl (solid '\n' rfl).2

end

end EtherCalc
