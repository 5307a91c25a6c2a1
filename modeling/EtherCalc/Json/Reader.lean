import EtherCalc.Json.Number

namespace EtherCalc.Json

/-- The text that characters and escaped units spell.  Characters beyond the first 65536 are
escaped as two units, and neither of those two may stand alone. -/
def unescape? : List TextUnit → Option (List Char)
  | [] => some []
  | .char c :: rest => (unescape? rest).map (c :: ·)
  | .escaped high :: .escaped low :: rest =>
      if 0xD800 ≤ high ∧ high < 0xDC00 then
        if 0xDC00 ≤ low ∧ low < 0xE000 then
          (unescape? rest).map
            (Char.ofNat (0x10000 + (high - 0xD800) * 0x400 + (low - 0xDC00)) :: ·)
        else none
      else if 0xDC00 ≤ high ∧ high < 0xE000 then none
      else (unescape? (.escaped low :: rest)).map (Char.ofNat high :: ·)
  | .escaped unit :: rest =>
      if 0xD800 ≤ unit ∧ unit < 0xE000 then none
      else (unescape? rest).map (Char.ofNat unit :: ·)

def text? (units : List TextUnit) : Option String :=
  (unescape? units).map String.ofList

mutual

/-- The value of a written one, if its numbers and strings have a meaning. -/
def ofRaw? : Raw → Option Json
  | .null => some .null
  | .bool value => some (.bool value)
  | .number numeral => (Number.ofNumeral? numeral).map .number
  | .string units => (text? units).map .string
  | .array items => (ofRaws? items).map .array
  | .object members => (ofMembers? members).map fun found => .object (sorted found)
termination_by structural raw => raw

def ofRaws? : List Raw → Option (List Json)
  | [] => some []
  | raw :: rest =>
      match ofRaw? raw, ofRaws? rest with
      | some value, some values => some (value :: values)
      | _, _ => none
termination_by structural raws => raws

def ofMembers? : List (List TextUnit × Raw) → Option (List (String × Json))
  | [] => some []
  | (units, raw) :: rest =>
      match text? units, ofRaw? raw, ofMembers? rest with
      | some name, some value, some members => some ((name, value) :: members)
      | _, _, _ => none
termination_by structural members => members

end

/-- How many arrays and objects may be around a value. -/
def nestingLimit : Nat := 127

def read? (text : String) : Option Json :=
  (Raw.read? nestingLimit text.toList).bind ofRaw?

end EtherCalc.Json
