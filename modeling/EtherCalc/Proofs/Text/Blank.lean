import EtherCalc.Text.Blank
import Mathlib

namespace EtherCalc

def Blanks (chars : List Char) : Prop :=
  ∀ c ∈ chars, isBlank c

/-- No blank stands at an end of the text. -/
structure Bare (chars : List Char) : Prop where
  first : ∀ c ∈ chars.head?, ¬ isBlank c
  last : ∀ c ∈ chars.getLast?, ¬ isBlank c

/-- The text is a bare one with blanks around it. -/
def Padded (chars inner : List Char) : Prop :=
  Bare inner ∧ ∃ before after, chars = before ++ inner ++ after ∧ Blanks before ∧ Blanks after

variable {chars inner before after : List Char}

theorem Bare.reverse (bare : Bare chars) : Bare chars.reverse := by
  refine ⟨?_, ?_⟩
  · rw [List.head?_reverse]
    exact bare.last
  · rw [List.getLast?_reverse]
    exact bare.first

theorem Bare.append {left right : List Char} (bareLeft : Bare left) (bareRight : Bare right)
    (isLeft : left ≠ []) (isRight : right ≠ []) {middle : List Char} :
    Bare (left ++ middle ++ right) := by
  refine ⟨?_, ?_⟩
  · rw [List.append_assoc, List.head?_append_of_ne_nil _ isLeft]
    exact bareLeft.first
  · rw [List.getLast?_append_of_ne_nil _ isRight]
    exact bareRight.last

theorem dropWhile_bare (bare : Bare chars) : chars.dropWhile isBlank = chars := by
  cases chars with
  | nil => rfl
  | cons c rest => exact List.dropWhile_cons_of_neg (bare.first c rfl)

theorem Padded.trimBlank (padded : Padded chars inner) : trimBlank chars = inner := by
  obtain ⟨bare, before, after, rfl, blank, blankAfter⟩ := padded
  have blankReverse : ∀ c ∈ after.reverse, isBlank c :=
    fun c member => blankAfter c (List.mem_reverse.mp member)
  rw [EtherCalc.trimBlank, List.append_assoc, List.dropWhile_append_of_pos blank]
  cases inner with
  | nil =>
      rw [List.nil_append, List.dropWhile_eq_nil_iff.mpr blankAfter]
      rfl
  | cons c rest =>
      rw [List.cons_append, List.dropWhile_cons_of_neg (bare.first c rfl), ← List.cons_append,
        List.reverse_append, List.dropWhile_append_of_pos blankReverse, dropWhile_bare bare.reverse,
        List.reverse_reverse]

theorem padded_trimBlank (chars : List Char) : Padded chars (trimBlank chars) := by
  let front := chars.dropWhile isBlank
  have split : front = trimBlank chars ++ (front.reverse.takeWhile isBlank).reverse := by
    rw [trimBlank, ← List.reverse_append, List.takeWhile_append_dropWhile, List.reverse_reverse]
  refine ⟨⟨?_, ?_⟩, chars.takeWhile isBlank, (front.reverse.takeWhile isBlank).reverse, ?_, ?_, ?_⟩
  · intro c isFirst
    have first : front.head? = some c := by
      rw [split, List.head?_append, isFirst]
      rfl
    have outside := List.head?_dropWhile_not isBlank chars
    rw [show chars.dropWhile isBlank = front from rfl, first] at outside
    simpa using outside
  · intro c isLast
    rw [trimBlank, List.getLast?_reverse] at isLast
    have outside := List.head?_dropWhile_not isBlank front.reverse
    rw [show front.reverse.dropWhile isBlank = (chars.dropWhile isBlank).reverse.dropWhile isBlank
      from rfl, isLast] at outside
    simpa using outside
  · rw [List.append_assoc, ← split, List.takeWhile_append_dropWhile]
  · exact fun c member => List.mem_takeWhile_imp member
  · exact fun c member => List.mem_takeWhile_imp (List.mem_reverse.mp member)

variable {splits : Char → Bool}

theorem splitOnce_eq_some_iff : splitOnce splits chars = some (before, after) ↔
    ∃ c, chars = before ++ c :: after ∧ splits c ∧ ∀ other ∈ before, ¬ splits other := by
  unfold splitOnce
  constructor
  · intro found
    split at found
    · contradiction
    · rename_i c rest isRest
      cases found
      refine ⟨c, ?_, ?_, ?_⟩
      · rw [← isRest, List.takeWhile_append_dropWhile]
      · have outside := List.head?_dropWhile_not (fun c => !splits c) chars
        rw [isRest] at outside
        simpa using outside
      · intro other member
        simpa using List.mem_takeWhile_imp member
  · rintro ⟨c, rfl, isSplit, unsplit⟩
    have passes : ∀ other ∈ before, (!splits other) = true := by simpa using unsplit
    have stops : ¬ (!splits c) = true := by simpa using isSplit
    have drops : (c :: after).dropWhile (fun c => !splits c) = c :: after :=
      List.dropWhile_cons_of_neg stops
    have takes : (c :: after).takeWhile (fun c => !splits c) = [] :=
      List.takeWhile_cons_of_neg stops
    rw [List.dropWhile_append_of_pos passes, List.takeWhile_append_of_pos passes, drops, takes,
      List.append_nil]

theorem splitOnce_eq_none_iff : splitOnce splits chars = none ↔ ∀ c ∈ chars, ¬ splits c := by
  unfold splitOnce
  constructor
  · intro found
    split at found
    · rename_i isNil
      simpa using List.dropWhile_eq_nil_iff.mp isNil
    · contradiction
  · intro unsplit
    rw [List.dropWhile_eq_nil_iff.mpr (by simpa using unsplit)]

end EtherCalc
