import EtherCalc.Digit
import EtherCalc.Taken

namespace EtherCalc.Json

/-!
JSON text as it is written, before numbers and escapes get a meaning.  Reading fails where the
text breaks the grammar or nests arrays and objects too deeply.
-/

/-- A character of a string, or the unit of sixteen bits that an escape stands for. -/
inductive TextUnit where
  | char (c : Char)
  | escaped (unit : Nat)

structure Numeral where
  negative : Bool
  whole : List Char
  fraction : Option (List Char)
  /-- A minus sign, and the digits. -/
  exponent : Option (Bool × List Char)

inductive Raw where
  | null
  | bool (value : Bool)
  | number (numeral : Numeral)
  | string (units : List TextUnit)
  | array (items : List Raw)
  | object (members : List (List TextUnit × Raw))

namespace Raw

/-- What may stand around values. -/
def isSpace (c : Char) : Bool :=
  c == ' ' || c == '\n' || c == '\t' || c == '\r'

/-- The text from the next character on that is no space. -/
def skip (chars : List Char) : Taken Unit Char (chars.length + 1) :=
  ⟨(), chars.dropWhile isSpace, Nat.lt_succ_of_le (List.dropWhile_suffix _).length_le⟩

def expect (wanted : Char) (chars : List Char) : Option (Taken Unit Char chars.length) :=
  match skip chars with
  | ⟨_, [], _⟩ => none
  | ⟨_, first :: rest, shorter⟩ =>
      if first = wanted then some ⟨(), rest, Nat.lt_of_succ_lt_succ shorter⟩ else none

/-- The unit that four hexadecimal digits spell. -/
def hexUnit? (first second third fourth : Char) : Option Nat := do
  let first ← digit? 16 first
  let second ← digit? 16 second
  let third ← digit? 16 third
  let fourth ← digit? 16 fourth
  return ((first * 16 + second) * 16 + third) * 16 + fourth

/-- The character that a one-letter escape stands for. -/
def escape? : Char → Option Char
  | '"' => some '"'
  | '\\' => some '\\'
  | '/' => some '/'
  | 'b' => some '\x08'
  | 'f' => some '\x0c'
  | 'n' => some '\n'
  | 'r' => some '\r'
  | 't' => some '\t'
  | _ => none

def stringRest : (chars : List Char) → Option (Taken (List TextUnit) Char chars.length)
  | [] => none
  | '"' :: rest => some ⟨[], rest, Nat.lt_succ_self _⟩
  | '\\' :: 'u' :: a :: b :: c :: d :: rest =>
      match hexUnit? a b c d, stringRest rest with
      | some unit, some taken =>
          some ((taken.map (.escaped unit :: ·)).within (Nat.le_add_right _ 6))
      | _, _ => none
  | '\\' :: letter :: rest =>
      match escape? letter, stringRest rest with
      | some c, some taken =>
          some ((taken.map (.char c :: ·)).within (Nat.le_add_right _ 2))
      | _, _ => none
  | c :: rest =>
      if c.toNat < 0x20 ∨ c = '\\' then none
      else
        match stringRest rest with
        | some taken => some ((taken.map (.char c :: ·)).within (Nat.le_succ _))
        | none => none

def digits (chars : List Char) : Option (Taken (List Char) Char chars.length) :=
  match chars with
  | [] => none
  | first :: rest =>
      if isDigit 10 first then
        some ⟨first :: rest.takeWhile (isDigit 10), rest.dropWhile (isDigit 10),
          Nat.lt_succ_of_le (List.dropWhile_suffix _).length_le⟩
      else none

def fraction (chars : List Char) :
    Option (Taken (Option (List Char)) Char (chars.length + 1)) :=
  match chars with
  | '.' :: rest =>
      (digits rest).map fun taken =>
        (taken.map some).within (Nat.le_add_right _ 2)
  | chars => some ⟨none, chars, Nat.lt_succ_self _⟩

def exponent (chars : List Char) :
    Option (Taken (Option (Bool × List Char)) Char (chars.length + 1)) :=
  match chars with
  | e :: '-' :: rest =>
      if e = 'e' ∨ e = 'E' then
        (digits rest).map fun taken =>
          (taken.map fun power => some (true, power)).within
            (Nat.le_add_right _ 3)
      else some ⟨none, e :: '-' :: rest, Nat.lt_succ_self _⟩
  | e :: '+' :: rest =>
      if e = 'e' ∨ e = 'E' then
        (digits rest).map fun taken =>
          (taken.map fun power => some (false, power)).within
            (Nat.le_add_right _ 3)
      else some ⟨none, e :: '+' :: rest, Nat.lt_succ_self _⟩
  | e :: rest =>
      if e = 'e' ∨ e = 'E' then
        (digits rest).map fun taken =>
          (taken.map fun power => some (false, power)).within
            (Nat.le_add_right _ 2)
      else some ⟨none, e :: rest, Nat.lt_succ_self _⟩
  | [] => some ⟨none, [], Nat.lt_succ_self _⟩

/-- A number after its sign.  Only zero itself starts with a zero. -/
def unsigned (negative : Bool) (chars : List Char) :
    Option (Taken Numeral Char chars.length) := do
  let whole ← digits chars
  if whole.value.head? = some '0' ∧ whole.value ≠ ['0'] then none
  else
    let part ← fraction whole.rest
    let power ← exponent part.rest
    some ⟨⟨negative, whole.value, part.value, power.value⟩, power.rest,
      Nat.lt_of_lt_of_le power.shorter (Nat.le_trans part.shorter whole.shorter)⟩

/-- The name of a member, with the colon after it. -/
def memberName (chars : List Char) : Option (Taken (List TextUnit) Char chars.length) :=
  match expect '"' chars with
  | none => none
  | some ⟨_, rest, shorter⟩ =>
      match stringRest rest with
      | none => none
      | some ⟨name, rest', shorter'⟩ =>
          (expect ':' rest').map fun taken =>
            (taken.map fun _ => name).within (Nat.le_of_lt (Nat.lt_trans shorter' shorter))

/-- The rest of a word after its first letter. -/
def word (value : Raw) (letters chars : List Char) :
    Option (Taken Raw Char (chars.length + 1)) :=
  if chars.take letters.length = letters then
    some ⟨value, chars.drop letters.length,
      Nat.lt_succ_of_le (List.drop_suffix _ _).length_le⟩
  else none

mutual

/-- A value, with at most `depth` arrays and objects around any part of it. -/
def value (depth : Nat) (chars : List Char) : Option (Taken Raw Char chars.length) :=
  match skip chars with
  | ⟨_, [], _⟩ => none
  | ⟨_, first :: rest, shorter⟩ =>
      have fewer : rest.length < chars.length := Nat.lt_of_succ_lt_succ shorter
      match first with
      | 'n' => (word .null ['u', 'l', 'l'] rest).map (·.within fewer)
      | 't' => (word (.bool true) ['r', 'u', 'e'] rest).map (·.within fewer)
      | 'f' => (word (.bool false) ['a', 'l', 's', 'e'] rest).map (·.within fewer)
      | '"' =>
          (stringRest rest).map fun taken =>
            (taken.map Raw.string).within (Nat.le_of_lt fewer)
      | '-' =>
          (unsigned true rest).map fun taken =>
            (taken.map Raw.number).within (Nat.le_of_lt fewer)
      | '[' =>
          match depth with
          | 0 => none
          | depth + 1 =>
              match expect ']' rest with
              | some taken => some ((taken.map fun _ => .array []).within (Nat.le_of_lt fewer))
              | none =>
                  match items depth rest with
                  | none => none
                  | some taken => some ((taken.map Raw.array).within (Nat.le_of_lt fewer))
      | '{' =>
          match depth with
          | 0 => none
          | depth + 1 =>
              match expect '}' rest with
              | some taken => some ((taken.map fun _ => .object []).within (Nat.le_of_lt fewer))
              | none =>
                  match members depth rest with
                  | none => none
                  | some taken => some ((taken.map Raw.object).within (Nat.le_of_lt fewer))
      | _ =>
          (unsigned false (first :: rest)).map fun taken =>
            (taken.map Raw.number).within (Nat.le_of_lt_succ shorter)
termination_by (chars.length, 0)

def items (depth : Nat) (chars : List Char) : Option (Taken (List Raw) Char chars.length) :=
  match value depth chars with
  | none => none
  | some ⟨first, rest, shorter⟩ =>
      match expect ']' rest with
      | some taken => some ((taken.map fun _ => [first]).within (Nat.le_of_lt shorter))
      | none =>
          match expect ',' rest with
          | none => none
          | some ⟨_, rest', shorter'⟩ =>
              match items depth rest' with
              | none => none
              | some taken =>
                  some ((taken.map (first :: ·)).within
                    (Nat.le_of_lt (Nat.lt_trans shorter' shorter)))
termination_by (chars.length, 1)

def members (depth : Nat) (chars : List Char) :
    Option (Taken (List (List TextUnit × Raw)) Char chars.length) :=
  match memberName chars with
  | none => none
  | some ⟨name, rest, shorter⟩ =>
      match value depth rest with
      | none => none
      | some ⟨first, rest', shorter'⟩ =>
          match expect '}' rest' with
          | some taken =>
              some ((taken.map fun _ => [(name, first)]).within
                (Nat.le_of_lt (Nat.lt_trans shorter' shorter)))
          | none =>
              match expect ',' rest' with
              | none => none
              | some ⟨_, rest'', shorter''⟩ =>
                  match members depth rest'' with
                  | none => none
                  | some taken =>
                      some ((taken.map ((name, first) :: ·)).within
                        (Nat.le_of_lt (Nat.lt_trans shorter'' (Nat.lt_trans shorter' shorter))))
termination_by (chars.length, 1)

end

def read? (depth : Nat) (text : List Char) : Option Raw :=
  match value depth text with
  | none => none
  | some taken => if taken.rest.all isSpace then some taken.value else none

end Raw

end EtherCalc.Json
