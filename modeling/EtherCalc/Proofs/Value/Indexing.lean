import EtherCalc.Host.Standard
import EtherCalc.Proofs.Semantics.Integers
import EtherCalc.Proofs.Sequence

namespace EtherCalc.Value

/-- What can be read from an array or a text by an index, in order. -/
def elements? : Value → Option (List Value)
  | .array _ items => some items
  | .string text => some (text.toList.map fun c => .string (String.singleton c))
  | _ => none

section

variable {α β : Type} {items : List α} {index other value : Value} {position : Int} {place : Nat}
variable {error : EvalError} {elements : List Value} {objects : ObjectHost} {policy : UnboundPolicy}
variable {id : Nat}

theorem elementAt_error (failed : index.toInteger = .error error) :
    elementAt items index = .error error := by
  rw [elementAt, failed]

theorem elementAt_inside (read : index.toInteger = .ok (place : Int))
    (inside : place < items.length) : elementAt items index = .ok items[place] := by
  simp [elementAt, read, inside]

theorem elementAt_outside (read : index.toInteger = .ok position)
    (outside : position < 0 ∨ items.length ≤ position) :
    elementAt items index = .error (.indexOutOfRange position (some items.length)) := by
  have missing : (if 0 ≤ position then items[position.toNat]? else none) = none := by
    split
    · exact List.getElem?_eq_none (by omega)
    · rfl
  simp only [elementAt, read, missing]

theorem elementAt_congr (same : index.toInteger = other.toInteger) :
    elementAt items index = elementAt items other := by
  rw [elementAt, elementAt, same]

/-- The position is below zero, or not below the length, or else one of the list. -/
theorem position_cases (position : Int) (length : Nat) :
    (position < 0 ∨ length ≤ position) ∨ ∃ place : Nat, position = place ∧ place < length := by
  by_cases outside : position < 0 ∨ length ≤ position
  · exact .inl outside
  · exact .inr ⟨position.toNat, by omega, by omega⟩

theorem elementAt_map (build : α → β) :
    elementAt (items.map build) index = (elementAt items index).map build := by
  cases read : index.toInteger with
  | error error =>
      rw [elementAt_error read, elementAt_error read]
      rfl
  | ok position =>
      rcases position_cases position items.length with outside | ⟨place, rfl, inside⟩
      · rw [elementAt_outside read outside, elementAt_outside read (by rwa [List.length_map]),
          List.length_map]
        rfl
      · rw [elementAt_inside read inside, elementAt_inside read (by rwa [List.length_map]),
          List.getElem_map]
        rfl

theorem elementAt_eq_ok (read : index.toInteger = .ok position) :
    (∃ item, elementAt items index = .ok item) ↔ 0 ≤ position ∧ position < items.length := by
  rcases position_cases position items.length with outside | ⟨place, rfl, inside⟩
  · rw [elementAt_outside read outside]
    constructor
    · rintro ⟨_, ⟨⟩⟩
    · omega
  · exact ⟨fun _ => by omega, fun _ => ⟨_, elementAt_inside read inside⟩⟩

/-- It makes no difference if the position is first brought into a word of 64 bits, which negative
and huge ones do not fit: the error for those is the error for a word that is beyond the end. -/
theorem elementAt_narrowed (fits : items.length ≤ UInt64.size)
    (read : index.toInteger = .ok position) : elementAt items index =
      match Integer.count? position with
      | none => .error (.indexOutOfRange position (some items.length))
      | some place =>
          match items[place]? with
          | some item => .ok item
          | none => .error (.indexOutOfRange place (some items.length)) := by
  rcases position_cases position items.length with outside | ⟨place, rfl, inside⟩
  · rw [elementAt_outside read outside]
    cases narrowed : Integer.count? position with
    | none => rfl
    | some place =>
        obtain ⟨⟨low, _⟩, rfl⟩ :
            (0 ≤ position ∧ position < UInt64.size) ∧ position.toNat = place := by
          simpa [Integer.count?] using narrowed
        have beyond : items[position.toNat]? = none := List.getElem?_eq_none (by omega)
        simp only [beyond, Int.toNat_of_nonneg low]
  · have narrowed : Integer.count? (place : Int) = some place := by
      rw [Integer.count?, if_pos ⟨by omega, by omega⟩, Int.toNat_natCast]
    rw [elementAt_inside read inside]
    simp only [narrowed, List.getElem?_eq_getElem inside]

theorem readItem_elements (known : value.elements? = some elements) :
    value.readItem objects index id = ⟨elementAt elements index, [], id⟩ := by
  cases value with
  | array id' items =>
      cases known
      exact Outcome.after_nil.symm.trans Run.ofExcept_after
  | string text =>
      cases known
      rw [readItem, elementAt_map]
      exact Outcome.after_nil.symm.trans Run.ofExcept_after
  | _ => contradiction

theorem readProperty_length (known : value.elements? = some elements) :
    value.readProperty objects policy "length" id =
      ⟨.ok (Integer.toValue elements.length), [], id⟩ := by
  have found : property? objects "length" value =
      pure (some (Integer.toValue elements.length)) := by
    cases value with
    | array id' items =>
        cases known
        rfl
    | string text =>
        cases known
        rw [List.length_map, String.length_toList]
        rfl
    | _ => contradiction
  rw [readProperty, found, pure_bind]
  unfold Integer.toValue
  cases Integer.narrow? elements.length <;> rfl

theorem elements?_string (text : String) : ∃ pieces : List String,
    elements? (.string text) = some (pieces.map .string) ∧ pieces.length = text.length ∧
      (∀ piece ∈ pieces, piece.length = 1) ∧ String.join pieces = text := by
  refine ⟨text.toList.map String.singleton, ?_, ?_, ?_, ?_⟩
  · rw [elements?, List.map_map]
    rfl
  · rw [List.length_map, String.length_toList]
  · refine List.forall_mem_map.mpr fun c _ => ?_
    rw [← String.length_toList, String.toList_singleton, List.length_singleton]
  · rw [← String.toList_inj, String.toList_join, List.flatMap_map]
    simp

end

/-- An index below the length, which is an integer, reads an element, and for any other the error
names the two.  It does not matter in what form the index is given.  The elements of an array are its
items, and those of a text are characters that make up the text. -/
theorem indexing_agrees (objects : ObjectHost) (policy : UnboundPolicy) (id : Nat) :
    (∀ value elements, elements? value = some elements → ∃ length,
      value.readProperty objects policy "length" id = ⟨.ok length, [], id⟩ ∧
      length.toInteger = .ok (elements.length : Int) ∧
      ∀ index,
        (∀ error, index.toInteger = .error error →
          value.readItem objects index id = ⟨.error error, [], id⟩) ∧
        ∀ position, index.toInteger = .ok position →
          ((∃ element, value.readItem objects index id = ⟨.ok element, [], id⟩) ↔
            0 ≤ position ∧ position < elements.length) ∧
          (¬ (0 ≤ position ∧ position < elements.length) →
            value.readItem objects index id =
              ⟨.error (.indexOutOfRange position (some elements.length)), [], id⟩) ∧
          ∀ place (inside : place < elements.length), position = (place : Nat) →
            value.readItem objects index id = ⟨.ok elements[place], [], id⟩) ∧
    (∀ value index other, (elements? value).isSome → index.toInteger = other.toInteger →
      value.readItem objects index id = value.readItem objects other id) ∧
    (∀ position : Int, ∀ length : Nat, (EvalError.indexOutOfRange position (some length)).message =
      "Index " ++ toString position ++ " out of range for length " ++ toString length) ∧
    (∀ arrayId items, elements? (.array arrayId items) = some items) ∧
    ∀ text, ∃ pieces : List String, elements? (.string text) = some (pieces.map .string) ∧
      pieces.length = text.length ∧ (∀ piece ∈ pieces, piece.length = 1) ∧
      String.join pieces = text := by
  refine ⟨?_, ?_, fun _ _ => rfl, fun _ _ => rfl, elements?_string⟩
  · intro value elements known
    refine ⟨_, readProperty_length known, Integer.toValue_carries.toInteger, fun index => ?_⟩
    refine ⟨fun error failed => ?_, fun position read => ⟨?_, fun outside => ?_, ?_⟩⟩
    · rw [readItem_elements known, elementAt_error failed]
    · rw [← elementAt_eq_ok read]
      simp only [readItem_elements known, Outcome.mk.injEq, and_true]
    · rw [readItem_elements known, elementAt_outside read (by omega)]
    · rintro place inside rfl
      rw [readItem_elements known, elementAt_inside read inside]
  · intro value index other known same
    obtain ⟨elements, known⟩ := Option.isSome_iff_exists.mp known
    rw [readItem_elements known, readItem_elements known, elementAt_congr same]

/-- The number of a huge index is told exactly, and of a text the characters count, not the
bytes. -/
theorem indexing_agrees_text :
    let objects := Host.standard.toObjectHost
    let text : Value := .string "aé𝔸"
    let huge : Int := 18446744073709551616
    text.elements? = some [.string "a", .string "é", .string "𝔸"] ∧
      text.readItem objects (.string "0x2") 0 = ⟨.ok (.string "𝔸"), [], 0⟩ ∧
      text.readItem objects (.int 2) 0 = ⟨.ok (.string "𝔸"), [], 0⟩ ∧
      text.readItem objects (.int (-1)) 0 =
        ⟨.error (.indexOutOfRange (-1) (some 3)), [], 0⟩ ∧
      text.readItem objects (.big huge) 0 =
        ⟨.error (.indexOutOfRange huge (some 3)), [], 0⟩ ∧
      text.readItem objects (.bool true) 0 =
        ⟨.error (.type (.notInteger "bool")), [], 0⟩ := by
  intro objects text huge
  obtain ⟨agrees, depends, _⟩ := indexing_agrees objects .error 0
  have known : text.elements? = some [.string "a", .string "é", .string "𝔸"] := by cbv
  obtain ⟨_, _, _, reads⟩ := agrees text _ known
  have last : text.readItem objects (.int 2) 0 = ⟨.ok (.string "𝔸"), [], 0⟩ :=
    ((reads (.int 2)).2 2 rfl).2.2 2 (by decide) rfl
  refine ⟨known, ?_, last, ?_, ?_, ?_⟩
  · rw [depends text (.string "0x2") (.int 2) rfl (by cbv), last]
  · exact ((reads (.int (-1))).2 (-1) rfl).2.1 (by decide)
  · exact ((reads (.big huge)).2 huge rfl).2.1 (by decide)
  · exact (reads (.bool true)).1 _ rfl

end EtherCalc.Value
