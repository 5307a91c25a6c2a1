import EtherCalc.Proofs.Json.Path
import EtherCalc.Proofs.Value.Json

namespace EtherCalc

namespace Numeral

variable {value : Nat} {chars : List Char} {text : String} {c : Char}

theorem chars_of_magnitude? (found : magnitude? chars = some value) :
    ∀ c ∈ chars, isDigit 16 c ∨ c = 'x' ∨ c = 'X' := by
  have hex {mark : Char} {digits : List Char} (isMark : mark = 'x' ∨ mark = 'X')
      (found : natural? 16 digits = some value) :
      ∀ c ∈ '0' :: mark :: digits, isDigit 16 c ∨ c = 'x' ∨ c = 'X' := by
    intro c member
    simp only [List.mem_cons] at member
    rcases member with rfl | rfl | member
    · exact .inl rfl
    · exact .inr isMark
    · exact .inl (isDigit_of_natural? found c member)
  unfold magnitude? at found
  split at found
  · exact hex (.inl rfl) found
  · exact hex (.inr rfl) found
  · exact fun c member => .inl (isDigit_sixteen (isDigit_of_natural? found c member))

/-- A point or a sign after the first character is part of no integer. -/
theorem read_foreign (member : c ∈ text.toList.tail) (foreign : c ∈ ['.', '+', '-']) :
    read text = .error (.invalidNumeral text) := by
  have strange : ¬ (isDigit 16 c ∨ c = 'x' ∨ c = 'X') := by
    fin_cases foreign <;> decide
  have none : integer? text.toList = none := by
    unfold integer?
    split
    · rename_i rest isText
      rw [isText] at member
      cases found : magnitude? rest with
      | none => rfl
      | some value => exact absurd (chars_of_magnitude? found c member) strange
    · cases found : magnitude? text.toList with
      | none => rfl
      | some value =>
          exact absurd (chars_of_magnitude? found c (List.mem_of_mem_tail member)) strange
  rw [read, none]

end Numeral

namespace Magnitude

theorem mem_tail_append {c : Char} {before after : List Char} (isBefore : before ≠ []) :
    c ∈ (before ++ c :: after).tail := by
  rw [List.tail_append_of_ne_nil isBefore]
  simp

theorem positional_point (digits : List Char) (leading : Int) :
    '.' ∈ (positional digits leading).tail := by
  unfold positional
  split
  · simp
  · dsimp only
    split
    · refine mem_tail_append fun isNil => ?_
      obtain ⟨rfl, noZeros⟩ := List.append_eq_nil_iff.mp isNil
      simp at noZeros
    · rename_i longer
      rw [List.append_assoc]
      refine mem_tail_append fun isNil => ?_
      simp at isNil
      simp [isNil] at longer

theorem exponential_sign (digits : List Char) (leading : Int) :
    (if leading < 0 then '-' else '+') ∈ (exponential digits leading).tail := by
  let fraction := if digits.length = 1 then [] else '.' :: digits.drop 1
  have split : exponential digits leading = (digits.take 1 ++ fraction ++ ['e']) ++
      (if leading < 0 then '-' else '+') :: Nat.toDigits 10 leading.natAbs := by
    simp [exponential, fraction]
  rw [split]
  exact mem_tail_append (by simp)

theorem text_foreign (magnitude : Magnitude) :
    ∃ c ∈ magnitude.text.tail, c ∈ ['.', '+', '-'] := by
  unfold text
  split
  · exact ⟨'.', by simp, by simp⟩
  · dsimp only
    split
    · exact ⟨'.', positional_point _ _, by simp⟩
    · refine ⟨_, exponential_sign _ _, ?_⟩
      split <;> simp

end Magnitude

/-- The text of a binary64 number is that of no integer. -/
theorem Binary64.read_text (number : Binary64) :
    Numeral.read number.text = .error (.invalidNumeral number.text) := by
  obtain ⟨c, member, foreign⟩ := number.magnitude.text_foreign
  refine Numeral.read_foreign ?_ foreign
  rw [text, String.toList_ofList]
  cases number.negative with
  | false => exact member
  | true => exact List.mem_of_mem_tail member

namespace Json

variable {before : Nat} {digits : List Char} {numeral : Numeral} {number : Number}

/-- The integer that is written before a point and an exponent. -/
def Numeral.integer (numeral : Numeral) : Int :=
  let magnitude : Int := Nat.ofDigitChars 10 numeral.whole 0
  if numeral.negative then -magnitude else magnitude

/-- Nothing but a sign and digits is written. -/
def Numeral.IsInteger (numeral : Numeral) : Prop :=
  numeral.fraction = none ∧ numeral.exponent = none

/-- A word of 64 bits holds the integer, a signed one below zero; zero has no sign. -/
def Numeral.Held (numeral : Numeral) : Prop :=
  Int64.minValue.toInt ≤ numeral.integer ∧ numeral.integer < UInt64.size ∧
    ¬ (numeral.negative ∧ numeral.integer = 0)

namespace Numeral

theorem held_unsigned (plain : numeral.negative = false) :
    numeral.Held ↔ Nat.ofDigitChars 10 numeral.whole 0 < UInt64.size := by
  have least : Int64.minValue.toInt = -9223372036854775808 := rfl
  simp only [Held, integer, plain, Bool.false_eq_true, if_false, false_and, not_false_eq_true,
    and_true]
  omega

theorem held_signed (signed : numeral.negative = true) :
    numeral.Held ↔ Nat.ofDigitChars 10 numeral.whole 0 ≠ 0 ∧
      Int64.minValue.toInt ≤ -(Nat.ofDigitChars 10 numeral.whole 0 : Int) := by
  have size : UInt64.size = 18446744073709551616 := rfl
  simp only [Held, integer, signed, if_true, true_and]
  omega

end Numeral

theorem le_ofDigitChars : before ≤ Nat.ofDigitChars 10 digits before := by
  induction digits generalizing before with
  | nil => simp
  | cons digit rest ih =>
      rw [Nat.ofDigitChars_cons]
      exact (by omega : before ≤ 10 * before + _).trans ih

namespace Number

theorem withDigit?_fits {digit : Char}
    (fits : before * 10 + (digit.toNat - '0'.toNat) < UInt64.size) :
    withDigit? before digit = some (before * 10 + (digit.toNat - '0'.toNat)) := by
  simp only [withDigit?, fits, if_true]

theorem withDigit?_exceeds {digit : Char}
    (exceeds : ¬ before * 10 + (digit.toNat - '0'.toNat) < UInt64.size) :
    withDigit? before digit = none := by
  simp only [withDigit?, exceeds, if_false]

theorem wholeDigits_cons {digit : Char} {rest : List Char} :
    wholeDigits before (digit :: rest) =
      match withDigit? before digit with
      | some longer => wholeDigits longer rest
      | none => ⟨before, (digit :: rest).length⟩ := by
  -- the equation that Lean would make for this case compares words in unary
  delta wholeDigits
  rfl

theorem wholeDigits_fits (fits : Nat.ofDigitChars 10 digits before < UInt64.size) :
    wholeDigits before digits = ⟨Nat.ofDigitChars 10 digits before, 0⟩ := by
  induction digits generalizing before with
  | nil => rfl
  | cons digit rest ih =>
      rw [Nat.ofDigitChars_cons, Nat.mul_comm] at fits
      rw [wholeDigits_cons, withDigit?_fits (Nat.lt_of_le_of_lt le_ofDigitChars fits),
        Nat.ofDigitChars_cons, Nat.mul_comm 10]
      exact ih fits

theorem wholeDigits_exceeds (small : before < UInt64.size)
    (exceeds : UInt64.size ≤ Nat.ofDigitChars 10 digits before) :
    (wholeDigits before digits).exponent ≠ 0 := by
  induction digits generalizing before with
  | nil => exact absurd small (Nat.not_lt.mpr exceeds)
  | cons digit rest ih =>
      rw [Nat.ofDigitChars_cons, Nat.mul_comm 10] at exceeds
      rw [wholeDigits_cons]
      by_cases fits : before * 10 + (digit.toNat - '0'.toNat) < UInt64.size
      · rw [withDigit?_fits fits]
        exact ih fits exceeds
      · rw [withDigit?_exceeds fits]
        exact Int.natCast_ne_zero.mpr (Nat.succ_ne_zero _)

theorem ofScaled?_binary {negative : Bool} {scaled : Scaled}
    (made : ofScaled? negative scaled = some number) : ∃ value, number = .binary value := by
  obtain ⟨magnitude, _, made⟩ := Option.bind_eq_some_iff.mp made
  obtain ⟨result, _, made⟩ := Option.bind_eq_some_iff.mp made
  cases made
  exact ⟨_, rfl⟩

theorem ofNumeral?_whole (whole : numeral.IsInteger) :
    ofNumeral? numeral = ofWhole? numeral.negative (wholeDigits 0 numeral.whole) := by
  unfold ofNumeral?
  rw [whole.1, whole.2]

theorem ofWhole?_exceeds {negative : Bool} {whole : Scaled} (exceeds : whole.exponent ≠ 0) :
    ofWhole? negative whole = ofScaled? negative whole :=
  if_pos exceeds

theorem ofWhole?_unsigned (magnitude : Nat) :
    ofWhole? false ⟨magnitude, 0⟩ = some (.integer magnitude) := by
  simp [ofWhole?]

theorem ofWhole?_signed (magnitude : Nat) : ofWhole? true ⟨magnitude, 0⟩ =
    if magnitude ≠ 0 ∧ Int64.minValue.toInt ≤ -(magnitude : Int) then
      some (.integer (-magnitude))
    else ofScaled? true ⟨magnitude, 0⟩ := by
  have positive : 0 < (magnitude : Int) ↔ magnitude ≠ 0 := by omega
  unfold ofWhole?
  rw [if_neg (by simp), if_neg (by simp)]
  simp only [positive]

theorem ofNumeral?_held (whole : numeral.IsInteger) (held : numeral.Held) :
    ofNumeral? numeral = some (.integer numeral.integer) := by
  rw [ofNumeral?_whole whole, Numeral.integer]
  cases sign : numeral.negative with
  | false =>
      rw [wholeDigits_fits ((Numeral.held_unsigned sign).mp held), ofWhole?_unsigned]
      rfl
  | true =>
      have both := (Numeral.held_signed sign).mp held
      have fits : Nat.ofDigitChars 10 numeral.whole 0 < UInt64.size := by
        have least : Int64.minValue.toInt = -9223372036854775808 := rfl
        have size : UInt64.size = 18446744073709551616 := rfl
        omega
      rw [wholeDigits_fits fits, ofWhole?_signed, if_pos both]
      rfl

theorem ofNumeral?_not_held (whole : numeral.IsInteger) (notHeld : ¬ numeral.Held)
    (made : ofNumeral? numeral = some number) : ∃ value, number = .binary value := by
  rw [ofNumeral?_whole whole] at made
  by_cases fits : Nat.ofDigitChars 10 numeral.whole 0 < UInt64.size
  · cases sign : numeral.negative with
    | false => exact absurd ((Numeral.held_unsigned sign).mpr fits) notHeld
    | true =>
        rw [Numeral.held_signed sign] at notHeld
        rw [sign, wholeDigits_fits fits, ofWhole?_signed, if_neg notHeld] at made
        exact ofScaled?_binary made
  · have exceeds : (wholeDigits 0 numeral.whole).exponent ≠ 0 :=
      wholeDigits_exceeds (by decide) (Nat.not_lt.mp fits)
    rw [ofWhole?_exceeds exceeds] at made
    exact ofScaled?_binary made

end Number

end Json

/-- What becomes of a written integer: a value that stands for it, or the text of another number,
which stands for none. -/
structure Json.Numeral.Becomes (numeral : Json.Numeral) (value : Value) : Prop where
  kept : numeral.Held → value.toInteger = .ok numeral.integer
  lost : ¬ numeral.Held →
    ∃ text, value = .string text ∧ value.toInteger = .error (.invalidNumeral text)

theorem Json.Numeral.becomes_ofJson {numeral : Json.Numeral} {json : Json}
    (whole : numeral.IsInteger) (read : Json.ofRaw? (.number numeral) = some json) (id : Nat) :
    numeral.Becomes (Value.ofJson id json).1 := by
  obtain ⟨number, made, rfl⟩ := Option.map_eq_some_iff.mp read
  refine ⟨fun held => ?_, fun notHeld => ?_⟩
  · rw [Json.Number.ofNumeral?_held whole held] at made
    cases made
    exact Integer.toValue_carries.toInteger
  · obtain ⟨value, rfl⟩ := Json.Number.ofNumeral?_not_held whole notHeld made
    exact ⟨value.text, rfl, value.read_text⟩

theorem Context.get?_foldl_define {bindings : List (String × Value)} {context : Context}
    {name : String} (distinct : (Entries.names bindings).Nodup) :
    (bindings.foldl (fun context binding => context.define binding.1 binding.2) context).get? name =
      (Entries.find? name bindings).or (context.get? name) := by
  induction bindings generalizing context with
  | nil => rfl
  | cons binding rest ih =>
      obtain ⟨key, value⟩ := binding
      obtain ⟨fresh, distinctRest⟩ := List.nodup_cons.mp distinct
      rw [List.foldl_cons, ih distinctRest, Context.get?_define, Entries.find?]
      by_cases same : key = name
      · subst same
        have absent : Entries.find? key rest = none := by
          cases found : Entries.find? key rest with
          | none => rfl
          | some other => exact absurd (Entries.mem_names_of_find? found) fresh
        simp [absent]
      · simp [same, Ne.symm same]

/-- A context has the members of the object that it is made of. -/
theorem Context.get?_ofJson {members : List (String × Json)} {context : Context} {name : String}
    (ascending : Json.Ascending members) (made : Context.ofJson (.object members) = .ok context) :
    context.get? name = Entries.find? name (Value.ofMembers 0 members).1 := by
  cases made
  have distinct : (Entries.names (Value.ofMembers 0 members).1).Nodup := by
    rw [Value.names_ofMembers]
    exact ascending.nodup
  rw [Context.ofList, Context.get?_foldl_define distinct]
  exact Option.or_none

/-- An integer that is written anywhere in a text is kept if 64 bits hold it, and else it is lost:
the value in its place, be it in the value of the whole text or in the context that is made of it,
stands for the integer or for none. -/
theorem written_integers {text : String} {raw : Json.Raw} {json : Json} {path : Json.Path}
    {numeral : Json.Numeral} (written : Json.Raw.read? Json.nestingLimit text.toList = some raw)
    (read : Json.read? text = some json) (found : raw.at? path = some (.number numeral))
    (whole : numeral.IsInteger) :
    (∀ id, ∃ value, (Value.ofJson id json).1.at? path = some value ∧ numeral.Becomes value) ∧
      ∀ context, Context.ofJson json = .ok context →
        ∃ name rest bound value, path = .member name :: rest ∧ context.get? name = some bound ∧
          bound.at? rest = some value ∧ numeral.Becomes value := by
  have ordered := Json.read?_ordered read
  rw [Json.read?, written] at read
  refine ⟨fun id => ?_, fun context made => ?_⟩
  · obtain ⟨inner, id', readNumeral, isValue⟩ := Json.at?_ofJson read found id
    exact ⟨_, isValue, Json.Numeral.becomes_ofJson whole readNumeral id'⟩
  · cases json with
    | object members =>
        cases path with
        | nil =>
            cases found
            obtain ⟨_, _, isNumber⟩ := Option.map_eq_some_iff.mp read
            cases isNumber
        | cons step rest =>
            obtain ⟨name, bound, inner, id, rfl, isBound, readNumeral, isValue⟩ :=
              Json.at?_ofMembers read found 0
            rw [← Context.get?_ofJson ordered.1 made] at isBound
            exact ⟨name, rest, bound, _, rfl, isBound, isValue,
              Json.Numeral.becomes_ofJson whole readNumeral id⟩
    | _ => cases made

/-- The greatest word is kept. -/
theorem written_integers_word :
    let text := "\x7b\"x\":[18446744073709551615]\x7d"
    let json : Json := .object [("x", .array [.number (.integer 18446744073709551615)])]
    Json.read? text = some json ∧
      ∀ context, Context.ofJson json = .ok context → ∃ bound value, context.get? "x" = some bound ∧
        bound.at? [.item 0] = some value ∧ value.toInteger = .ok 18446744073709551615 := by
  intro text json
  let numeral : Json.Numeral := ⟨false, "18446744073709551615".toList, none, none⟩
  have written : Json.Raw.read? Json.nestingLimit text.toList =
      some (.object [([.char 'x'], .array [.number numeral])]) := by cbv
  have held : numeral.Held := (Json.Numeral.held_unsigned rfl).mpr (by decide)
  have made : Json.Number.ofNumeral? numeral = some (.integer 18446744073709551615) :=
    Json.Number.ofNumeral?_held ⟨rfl, rfl⟩ held
  have read : Json.read? text = some json := by
    rw [Json.read?, written]
    simp [Json.ofRaw?, Json.ofRaws?, Json.ofMembers?, Json.text?, Json.unescape?, made, Json.sorted,
      Json.putSorted, json]
  have found : (Json.Raw.object [([.char 'x'], .array [.number numeral])]).at?
      [.member "x", .item 0] = some (.number numeral) := rfl
  refine ⟨read, fun context isContext => ?_⟩
  obtain ⟨_, rest, bound, value, same, isBound, isValue, becomes⟩ :=
    (written_integers written read found ⟨rfl, rfl⟩).2 context isContext
  cases same
  exact ⟨bound, value, isBound, isValue, becomes.kept held⟩

/-- The integer after it is lost: the text in its place stands for no integer. -/
theorem written_integers_lost :
    let text := "\x7b\"x\":18446744073709551616\x7d"
    let numeral : Json.Numeral := ⟨false, "18446744073709551616".toList, none, none⟩
    Json.Raw.read? Json.nestingLimit text.toList = some (.object [([.char 'x'], .number numeral)]) ∧
      numeral.IsInteger ∧ numeral.integer = 18446744073709551616 ∧
      ∃ json value, Json.read? text = some json ∧
        (Value.ofJson 0 json).1.at? [.member "x"] = some value ∧
        value.toInteger = .error (.invalidNumeral "1.8446744073709552e+19") := by
  intro text numeral
  let number : Binary64 := ⟨false, ⟨4503599627370496, 12⟩⟩
  have written : Json.Raw.read? Json.nestingLimit text.toList =
      some (.object [([.char 'x'], .number numeral)]) := by cbv
  have digits : Json.Number.wholeDigits 0 numeral.whole = ⟨1844674407370955161, 1⟩ := rfl
  have made : Json.Number.ofNumeral? numeral = some (.binary number) := by
    rw [Json.Number.ofNumeral?_whole ⟨rfl, rfl⟩, digits]
    decide +kernel
  have read : Json.read? text = some (.object [("x", .number (.binary number))]) := by
    rw [Json.read?, written]
    simp [Json.ofRaw?, Json.ofMembers?, Json.text?, Json.unescape?, made, Json.sorted,
      Json.putSorted]
  have spelled : number.text = "1.8446744073709552e+19" := by decide +kernel
  refine ⟨written, ⟨rfl, rfl⟩, by decide, _, .string number.text, read, rfl, ?_⟩
  rw [Value.toInteger, number.read_text, spelled]
end EtherCalc
