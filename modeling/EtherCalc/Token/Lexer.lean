import EtherCalc.Digit
import EtherCalc.ParseError

namespace EtherCalc

/-!
From a source text to its lexemes.  `tokenAt?` finds the longest token at a place, `scan` cuts
the whole text with it, and `handBack` undoes the one cut that a reader would not make: in
`0x1ether` the longest hexadecimal literal is `0x1e`, and its last digit goes back to the unit.
-/

namespace Lexer

/-- What may stand between tokens: space, tab, carriage return, line feed and form feed. -/
def isSpace (c : Char) : Bool :=
  c == ' ' || c == '\t' || c == '\r' || c == '\n' || c == '\x0c'

def startsName (c : Char) : Bool :=
  c.isAlpha || c == '_' || c == '$'

def continuesName (c : Char) : Bool :=
  startsName c || isDigit 10 c

/-- After the `0` of a hexadecimal literal: the length of its `x` and its digits. -/
def hexTail? : List Char → Option Nat
  | x :: rest =>
      let digits := (rest.takeWhile (isDigit 16)).length
      if (x == 'x' || x == 'X') && digits != 0 then some (digits + 1) else none
  | [] => none

/-- After the mantissa of a scientific literal: the length of its `e` and its exponent. -/
def exponentTail? : List Char → Option Nat
  | e :: rest =>
      let digits := (rest.takeWhile (isDigit 10)).length
      if (e == 'e' || e == 'E') && digits != 0 then some (digits + 1) else none
  | [] => none

/-- The number that starts with the digit `first`, and how many characters of `rest` it takes. -/
def numberAt (first : Char) (rest : List Char) : Token × Nat :=
  match if first == '0' then hexTail? rest else none with
  | some length => (.hex, length)
  | none =>
      let digits := (rest.takeWhile (isDigit 10)).length
      match exponentTail? (rest.drop digits) with
      | some length => (.scientific, digits + length)
      | none => (.decimal, digits)

/-- The mark of one or two characters that starts with `first`, the longer one if both fit. -/
def markAt? (first : Char) (rest : List Char) : Option (Mark × Nat) :=
  let next := rest.head?
  match first with
  | '(' => some (.openParen, 0)
  | ')' => some (.closeParen, 0)
  | '[' => some (.openBracket, 0)
  | ']' => some (.closeBracket, 0)
  | ',' => some (.comma, 0)
  | '.' => some (.dot, 0)
  | '+' => some (.plus, 0)
  | '-' => some (.minus, 0)
  | '*' => some (.star, 0)
  | '/' => some (.slash, 0)
  | '!' => some (if next == some '=' then (.notEqual, 1) else (.bang, 0))
  | '<' => some (if next == some '=' then (.lessEqual, 1) else (.less, 0))
  | '>' => some (if next == some '=' then (.greaterEqual, 1) else (.greater, 0))
  | '=' => if next == some '=' then some (.equal, 1) else none
  | '&' => if next == some '&' then some (.andAnd, 1) else none
  | '|' => if next == some '|' then some (.orOr, 1) else none
  | _ => none

/-- After the opening quote of a string: the length of what is quoted and the closing quote. -/
def stringTail? (rest : List Char) : Option Nat :=
  let length := (rest.takeWhile (· != '\'')).length
  if length < rest.length then some (length + 1) else none

/-- The longest token that starts with `first`, and how many characters of `rest` it takes. -/
def tokenAt? (first : Char) (rest : List Char) : Option (Token × Nat) :=
  if isDigit 10 first then some (numberAt first rest)
  else if startsName first then some (.name, (rest.takeWhile continuesName).length)
  else if first == '\'' then (stringTail? rest).map (.string, ·)
  else (markAt? first rest).map fun found => (.mark found.1, found.2)

/-- The text reported where no token starts: all the rest from a quote that is never closed,
else one character. -/
def unreadableText (first : Char) (rest : List Char) : String :=
  if first == '\'' then String.ofList (first :: rest) else String.singleton first

structure Stop where
  offset : Nat
  text : String
deriving DecidableEq, Repr

/-- The lexemes of `chars`, of which the first character is at byte `offset`. -/
def scan (offset : Nat) (chars : List Char) : Except Stop (List Lexeme) :=
  match chars with
  | [] => .ok []
  | first :: rest =>
      if isSpace first then scan (offset + first.utf8Size) rest
      else
        match tokenAt? first rest with
        | none => .error ⟨offset, unreadableText first rest⟩
        | some (token, length) =>
            let text := first :: rest.take length
            match scan (offset + byteLength text) (rest.drop length) with
            | .error stop => .error stop
            | .ok lexemes => .ok (⟨token, String.ofList text, offset⟩ :: lexemes)
termination_by chars.length
decreasing_by
  · simp only [List.length_cons, Nat.lt_add_one]
  · simp only [List.length_cons, List.length_drop]
    omega

/-- The second lexeme is the rest of an `ether` whose `e` was taken for the last digit of the
first, and that one keeps a digit without it. -/
def splitsEther (first second : Lexeme) : Bool :=
  first.token == .hex && first.stop == second.start && 3 < first.text.length &&
  first.text.toList.getLast? == some 'e' && second.token == .name && second.text == "ther"

/-- The lexemes with every `ether` that lost its `e` to a hexadecimal literal made whole. -/
def handBack : List Lexeme → List Lexeme
  | first :: second :: rest =>
      if splitsEther first second then
        ⟨first.token, String.ofList first.text.toList.dropLast, first.start⟩ ::
        ⟨.name, "ether", second.start - 1⟩ :: handBack rest
      else first :: handBack (second :: rest)
  | lexemes => lexemes

end Lexer

def lexemes (source : String) : Except ParseError (List Lexeme) :=
  match Lexer.scan 0 source.toList with
  | .ok found => .ok (Lexer.handBack found)
  | .error stop => .error (.atOffset source stop.offset (.unreadable stop.text))

end EtherCalc
