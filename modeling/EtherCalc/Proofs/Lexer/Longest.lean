import EtherCalc.Proofs.Lexer.Separation

namespace EtherCalc

/-- The text is a token of the kind, and no token that begins with it goes on into what comes
after it. -/
structure Token.Longest (kind : Token) (text after : List Char) : Prop where
  spells : kind.Spells text
  longest : ∀ (other : Token) (more rest : List Char),
    after = more ++ rest → other.Spells (text ++ more) → more = []

namespace Lexer

variable {first mark : Char} {phrase digits rest : List Char} {kind : Token} {length : Nat}

section

variable (after : List Char)

theorem length_le_takeWhile {test : Char → Bool} (passes : ∀ c ∈ phrase, test c = true) :
    phrase.length ≤ ((phrase ++ after).takeWhile test).length := by
  rw [List.takeWhile_append_of_pos passes, List.length_append]
  exact Nat.le_add_right _ _

theorem hexTail?_ge (isMark : mark = 'x' ∨ mark = 'X') (some : Digits 16 digits) :
    ∃ length, hexTail? (mark :: (digits ++ after)) = .some length ∧ digits.length + 1 ≤ length := by
  have enough : digits.length ≤ ((digits ++ after).takeWhile (isDigit 16)).length :=
    length_le_takeWhile after some.2
  have positive : 0 < digits.length := List.length_pos_iff.mpr some.1
  have isMark : (mark == 'x' || mark == 'X') = true := by simpa using isMark
  refine ⟨_, ?_, Nat.succ_le_succ enough⟩
  simp only [hexTail?, isMark, Bool.true_and, bne_iff_ne]
  rw [if_pos (by omega)]

theorem exponentTail?_ge (isMark : mark = 'e' ∨ mark = 'E') (some : Digits 10 digits) :
    ∃ length, exponentTail? (mark :: (digits ++ after)) = .some length ∧
      digits.length + 1 ≤ length := by
  have enough : digits.length ≤ ((digits ++ after).takeWhile (isDigit 10)).length :=
    length_le_takeWhile after some.2
  have positive : 0 < digits.length := List.length_pos_iff.mpr some.1
  have isMark : (mark == 'e' || mark == 'E') = true := by simpa using isMark
  refine ⟨_, ?_, Nat.succ_le_succ enough⟩
  simp only [exponentTail?, isMark, Bool.true_and, bne_iff_ne]
  rw [if_pos (by omega)]

theorem not_hexMark_of_digit {c : Char} (digit : isDigit 10 c = true) : isHexMark c = false := by
  rw [Bool.eq_false_iff]
  intro isMark
  rcases Bool.or_eq_true_iff.mp isMark with same | same <;> cases beq_iff_eq.mp same <;>
    contradiction

theorem numberAt_ge_decimal (some : Digits 10 (first :: phrase)) :
    phrase.length ≤ (numberAt first (phrase ++ after)).2 := by
  cases phrase with
  | nil => exact Nat.zero_le _
  | cons c phrase =>
      have all : ∀ d ∈ c :: phrase, isDigit 10 d = true := fun d member => some.2 d (by simp [member])
      have enough : (c :: phrase).length ≤ ((c :: phrase ++ after).takeWhile (isDigit 10)).length :=
        length_le_takeWhile after all
      -- A second digit rules out a hexadecimal literal.
      have other : isHexMark c = false := not_hexMark_of_digit (all c List.mem_cons_self)
      have plain : hexTail? (c :: phrase ++ after) = none := hexTail?_none (by simpa using other)
      simp only [numberAt, plain, ite_self]
      split
      · exact Nat.le_add_right_of_le enough
      · exact enough

theorem numberAt_ge_hex (isMark : mark = 'x' ∨ mark = 'X') (some : Digits 16 digits) :
    digits.length + 1 ≤ (numberAt '0' (mark :: (digits ++ after))).2 := by
  obtain ⟨length, found, enough⟩ := hexTail?_ge after isMark some
  simpa [numberAt, found] using enough

theorem numberAt_ge_scientific (isMark : mark = 'e' ∨ mark = 'E')
    (mantissa : Digits 10 (first :: phrase)) (exponent : Digits 10 digits) :
    phrase.length + (digits.length + 1) ≤
      (numberAt first (phrase ++ (mark :: (digits ++ after)))).2 := by
  have all : ∀ c ∈ phrase, isDigit 10 c = true := fun c member => mantissa.2 c (by simp [member])
  have stops : isDigit 10 mark = false := by rcases isMark with rfl | rfl <;> decide
  have other : isHexMark mark = false := by rcases isMark with rfl | rfl <;> decide
  have whole : (phrase ++ (mark :: (digits ++ after))).takeWhile (isDigit 10) = phrase :=
    takeWhile_stops all (by simpa using stops)
  have plain : (if first == '0' then hexTail? (phrase ++ (mark :: (digits ++ after))) else none) =
      none := no_hexTail all (by simpa using other)
  obtain ⟨length, found, enough⟩ := exponentTail?_ge after isMark exponent
  simpa only [numberAt, plain, whole, List.drop_left, found] using
    Nat.add_le_add_left enough phrase.length

theorem markAt?_ge {symbol : Mark} (spelled : symbol.spelling.toList = first :: phrase) :
    ∃ found, markAt? first (phrase ++ after) = some found ∧ phrase.length ≤ found.2 := by
  cases symbol
  all_goals
    simp only [Mark.spelling, String.reduceToList, List.cons.injEq] at spelled
    obtain ⟨rfl, rfl⟩ := spelled
    first
      | exact ⟨_, rfl, Nat.le_refl _⟩
      | exact ⟨_, rfl, Nat.zero_le _⟩

/-- The token at a place is at least as long as any that begins there. -/
theorem tokenAt?_ge (spelled : kind.Spells (first :: phrase)) :
    ∃ token length, tokenAt? first (phrase ++ after) = some (token, length) ∧
      phrase.length ≤ length := by
  cases kind with
  | decimal =>
      have digit : isDigit 10 first = true := spelled.2 first List.mem_cons_self
      exact ⟨_, _, if_pos digit, numberAt_ge_decimal after spelled⟩
  | hex =>
      obtain ⟨mark, digits, same, isMark, some⟩ := spelled
      cases same
      exact ⟨_, _, if_pos (by decide), numberAt_ge_hex after isMark some⟩
  | scientific =>
      obtain ⟨mantissa, mark, exponent, same, isMark, digits, some⟩ := spelled
      cases mantissa with
      | nil => exact absurd rfl digits.1
      | cons head mantissa =>
          obtain ⟨rfl, rfl⟩ : first = head ∧ phrase = mantissa ++ mark :: exponent :=
            List.cons.inj same
          have digit : isDigit 10 first = true := digits.2 first List.mem_cons_self
          refine ⟨_, _, if_pos digit, ?_⟩
          rw [List.append_assoc, List.length_append]
          exact numberAt_ge_scientific after isMark digits some
  | string =>
      obtain ⟨inside, same, unquoted⟩ := spelled
      obtain ⟨rfl, rfl⟩ := List.cons.inj same
      have whole : (inside ++ '\'' :: after).takeWhile (· != '\'') = inside :=
        takeWhile_stops (fun c member => bne_iff_ne.mpr fun quote => unquoted (quote ▸ member))
          (by simp)
      have closed : stringTail? (inside ++ '\'' :: after) = some (inside.length + 1) := by
        rw [stringTail?, whole, if_pos (by simp)]
      have plain : isDigit 10 '\'' = false ∧ startsName '\'' = false := by decide
      exact ⟨.string, inside.length + 1, by simp [tokenAt?, plain, closed], by simp⟩
  | name =>
      obtain ⟨head, tail, same, starts, continues⟩ := spelled
      cases same
      have digit : isDigit 10 first = false := startsName_not_digit starts
      exact ⟨.name, _, by rw [tokenAt?, if_neg (by simp [digit]), if_pos starts],
        length_le_takeWhile after continues⟩
  | mark symbol =>
      have plain : isDigit 10 first = false ∧ startsName first = false ∧ first ≠ '\'' := by
        cases symbol <;> cases spelled <;> decide
      obtain ⟨⟨symbol', length⟩, found, enough⟩ := markAt?_ge after spelled.symm
      refine ⟨.mark symbol', length, ?_, enough⟩
      simp [tokenAt?, plain, found]

end

variable {after : List Char}

theorem tokenAt?_longest {token : Token} (found : tokenAt? first rest = some (token, length)) :
    token.Longest (first :: rest.take length) (rest.drop length) := by
  refine ⟨tokenAt?_spells found, fun other more left split spelled => ?_⟩
  have whole : rest.take length ++ more ++ left = rest := by
    rw [List.append_assoc, ← split, List.take_append_drop]
  have spelled : other.Spells (first :: (rest.take length ++ more)) := spelled
  obtain ⟨token', length', foundToo, enough⟩ := tokenAt?_ge left spelled
  rw [whole, found] at foundToo
  obtain ⟨rfl, rfl⟩ : token = token' ∧ length = length' := by simpa using foundToo
  have fits := congrArg List.length split
  simp only [List.length_append, List.length_take, List.length_drop] at enough fits
  exact List.eq_nil_of_length_eq_zero (by omega)

theorem tokenAt?_of_longest (longest : kind.Longest (first :: phrase) after) :
    ∃ length, tokenAt? first (phrase ++ after) = some (kind, length) ∧
      (phrase ++ after).take length = phrase ∧ (phrase ++ after).drop length = after := by
  obtain ⟨token, length, found, enough⟩ := tokenAt?_ge after longest.spells
  obtain ⟨more, rfl⟩ := Nat.exists_eq_add_of_le enough
  have taken : (phrase ++ after).take (phrase.length + more) = phrase ++ after.take more :=
    List.take_length_add_append more
  have left : (phrase ++ after).drop (phrase.length + more) = after.drop more :=
    List.drop_length_add_append more
  have spelled := tokenAt?_spells found
  rw [taken] at spelled
  have none : after.take more = [] :=
    longest.longest token _ _ (List.take_append_drop more after).symm spelled
  have all : after.drop more = after := by
    have split := List.take_append_drop more after
    rwa [none] at split
  rw [none, List.append_nil] at taken spelled
  rw [all] at left
  obtain rfl := spells_unique spelled longest.spells
  exact ⟨_, found, taken, left⟩

theorem tokenAt?_eq_none_iff : tokenAt? first rest = none ↔
    ∀ (kind : Token) (text after : List Char), first :: rest = text ++ after → ¬ kind.Spells text := by
  constructor
  · intro none kind text after split spelled
    obtain ⟨head, phrase, rfl⟩ := spells_cons spelled
    obtain ⟨rfl, rfl⟩ := List.cons.inj split
    obtain ⟨_, _, found, _⟩ := tokenAt?_ge after spelled
    cases none.symm.trans found
  · intro unreadable
    cases found : tokenAt? first rest with
    | none => rfl
    | some cut =>
        obtain ⟨token, length⟩ := cut
        refine absurd (tokenAt?_spells found) (unreadable token _ (rest.drop length) ?_)
        rw [List.cons_append, List.take_append_drop]

/-- One text has one longest token at most. -/
theorem longest_unique {other : Token} {text text' after' : List Char}
    (longest : kind.Longest text after) (longestToo : other.Longest text' after')
    (same : text ++ after = text' ++ after') : kind = other ∧ text = text' ∧ after = after' := by
  obtain ⟨first, phrase, rfl⟩ := spells_cons longest.spells
  obtain ⟨first', phrase', rfl⟩ := spells_cons longestToo.spells
  obtain ⟨rfl, whole⟩ : first = first' ∧ phrase ++ after = phrase' ++ after' := List.cons.inj same
  obtain ⟨length, found, taken, left⟩ := tokenAt?_of_longest longest
  obtain ⟨length', foundToo, takenToo, leftToo⟩ := tokenAt?_of_longest longestToo
  rw [← whole] at foundToo takenToo leftToo
  cases found.symm.trans foundToo
  exact ⟨rfl, by rw [← taken, ← takenToo], by rw [← left, ← leftToo]⟩

end Lexer

end EtherCalc
