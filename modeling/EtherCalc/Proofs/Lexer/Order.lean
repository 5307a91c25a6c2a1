import EtherCalc.Proofs.Lexer.Separation

namespace EtherCalc

/-- The lexemes lie between two places, none of them is empty, and each ends before the next. -/
def Ordered (low high : Nat) : List Lexeme → Prop
  | [] => low ≤ high
  | lexeme :: rest =>
      low ≤ lexeme.start ∧ lexeme.start < lexeme.stop ∧ Ordered lexeme.stop high rest

section

variable {low high : Nat} {lexeme other found found' : Lexeme}
variable {tokens rest after after' : List Lexeme}

theorem Ordered.lower {lower : Nat} (ordered : Ordered low high tokens) (le : lower ≤ low) :
    Ordered lower high tokens := by
  cases tokens with
  | nil => exact Nat.le_trans le ordered
  | cons lexeme rest => exact ⟨Nat.le_trans le ordered.1, ordered.2⟩

theorem Ordered.low_le_high (ordered : Ordered low high tokens) : low ≤ high := by
  induction tokens generalizing low with
  | nil => exact ordered
  | cons first rest ih =>
      obtain ⟨lowFirst, some, later⟩ := ordered
      have := ih later
      omega

theorem Ordered.low_le (ordered : Ordered low high tokens) (member : lexeme ∈ tokens) :
    low ≤ lexeme.start := by
  induction tokens generalizing low with
  | nil => contradiction
  | cons first rest ih =>
      obtain ⟨lowFirst, some, later⟩ := ordered
      rcases List.mem_cons.mp member with rfl | member
      · exact lowFirst
      · have := ih later member
        omega

theorem Ordered.start_lt (ordered : Ordered low high tokens) (member : lexeme ∈ tokens) :
    lexeme.start < high := by
  induction tokens generalizing low with
  | nil => contradiction
  | cons first rest ih =>
      obtain ⟨lowFirst, some, later⟩ := ordered
      rcases List.mem_cons.mp member with rfl | member
      · exact Nat.lt_of_lt_of_le some later.low_le_high
      · exact ih later member

theorem Ordered.later (ordered : Ordered low high (lexeme :: rest)) (member : other ∈ rest) :
    lexeme.start < other.start :=
  Nat.lt_of_lt_of_le ordered.2.1 (ordered.2.2.low_le member)

/-- The place at which a lexeme starts tells which one it is. -/
theorem Ordered.split_unique {before before' : List Lexeme}
    (ordered : Ordered low high (before ++ found :: after))
    (same : before ++ found :: after = before' ++ found' :: after')
    (start : found.start = found'.start) : before = before' ∧ found = found' ∧ after = after' := by
  induction before generalizing low before' with
  | nil =>
      cases before' with
      | nil =>
          obtain ⟨rfl, rfl⟩ := List.cons.inj same
          exact ⟨rfl, rfl, rfl⟩
      | cons first rest =>
          obtain ⟨rfl, rfl⟩ := List.cons.inj same
          have member : found' ∈ rest ++ found' :: after' := by simp
          have earlier := ordered.later member
          omega
  | cons first rest ih =>
      cases before' with
      | nil =>
          obtain ⟨rfl, rfl⟩ := List.cons.inj same
          have member : found ∈ rest ++ found :: after := by simp
          have earlier := ordered.later member
          omega
      | cons first' rest' =>
          obtain ⟨rfl, sameRest⟩ := List.cons.inj same
          obtain ⟨rfl, rfl, rfl⟩ := ih ordered.2.2 sameRest
          exact ⟨rfl, rfl, rfl⟩

end

namespace Lexer

theorem byteLength_append (left right : List Char) :
    byteLength (left ++ right) = byteLength left + byteLength right := by
  induction left with
  | nil => simp [byteLength]
  | cons c rest ih =>
      simp only [byteLength, List.cons_append, List.foldr_cons] at ih ⊢
      rw [ih, Nat.add_assoc]

theorem byteLength_cons_pos (first : Char) (rest : List Char) : 0 < byteLength (first :: rest) :=
  Nat.lt_of_lt_of_le (Char.utf8Size_pos first) (Nat.le_add_right _ _)

theorem byteLength_eq_zero {chars : List Char} (none : byteLength chars = 0) : chars = [] := by
  cases chars with
  | nil => rfl
  | cons first rest =>
      have some := byteLength_cons_pos first rest
      omega

theorem utf8ByteSize_ofList (chars : List Char) :
    (String.ofList chars).utf8ByteSize = byteLength chars := by
  rw [← byteLength_toList, String.toList_ofList]

theorem Scanned.ordered {offset : Nat} {chars : List Char} {found : List Lexeme}
    (scanned : Scanned offset chars found) : Ordered offset (offset + byteLength chars) found := by
  induction scanned with
  | done => exact Nat.le_add_right _ _
  | @space offset first rest found blank later ih =>
      have whole : byteLength (first :: rest) = first.utf8Size + byteLength rest := rfl
      rw [whole, ← Nat.add_assoc]
      exact ih.lower (Nat.le_add_right _ _)
  | @token offset length first rest token found solid cut later ih =>
      have whole : byteLength (first :: rest) =
          byteLength (first :: rest.take length) + byteLength (rest.drop length) := by
        rw [← byteLength_append, List.cons_append, List.take_append_drop]
      have some := byteLength_cons_pos first (rest.take length)
      rw [whole, ← Nat.add_assoc]
      refine ⟨Nat.le_refl _, ?_, ?_⟩
      · simp only [Lexeme.stop, utf8ByteSize_ofList]
        omega
      · simpa only [Lexeme.stop, utf8ByteSize_ofList] using ih

/-- Without its last letter `e` a text is one byte shorter. -/
theorem byteLength_dropLast {chars : List Char} (last : chars.getLast? = some 'e') :
    byteLength chars = byteLength chars.dropLast + 1 := by
  obtain ⟨before, rfl⟩ := List.getLast?_eq_some_iff.mp last
  rw [List.dropLast_concat, byteLength_append]
  rfl

theorem ordered_handBack {low high : Nat} {found : List Lexeme} (ordered : Ordered low high found) :
    Ordered low high (handBack found) := by
  induction found using handBack.induct generalizing low with
  | case1 first second rest splits ih =>
      rw [handBack, if_pos splits]
      obtain ⟨_, touches, long, last, _, text⟩ := splitsEther_spec splits
      obtain ⟨lowFirst, _, _, _, later⟩ := ordered
      have shorter := byteLength_dropLast last
      rw [byteLength_toList] at shorter
      have some : 0 < byteLength first.text.toList.dropLast := by
        cases chars : first.text.toList.dropLast with
        | nil =>
            have length := congrArg List.length chars
            rw [List.length_dropLast, String.length_toList, List.length_nil] at length
            omega
        | cons c rest => exact byteLength_cons_pos c rest
      have therSize : second.text.utf8ByteSize = 4 := by
        rw [text]
        rfl
      have etherSize : "ether".utf8ByteSize = 5 := rfl
      -- The two lexemes touch, and the border between them moves one byte to the left.
      simp only [Lexeme.stop] at touches later
      rw [therSize] at later
      refine ⟨lowFirst, ?_, ?_, ?_, ?_⟩ <;> simp only [Lexeme.stop, utf8ByteSize_ofList, etherSize]
      · omega
      · omega
      · omega
      · exact (ih later).lower (by omega)
  | case2 first second rest keeps ih =>
      rw [handBack, if_neg keeps]
      exact ⟨ordered.1, ordered.2.1, ih ordered.2.2⟩
  | case3 found single =>
      rwa [handBack.eq_2 found single]

end Lexer

theorem lexemes_ordered {source : String} {tokens : List Lexeme}
    (lexed : lexemes source = .ok tokens) : Ordered 0 source.utf8ByteSize tokens := by
  unfold lexemes at lexed
  split at lexed
  · rename_i found scanned
    cases lexed
    have ordered := (Lexer.scan_eq_ok_iff.mp scanned).ordered
    rw [Nat.zero_add, Lexer.byteLength_toList] at ordered
    exact Lexer.ordered_handBack ordered
  · contradiction

end EtherCalc
