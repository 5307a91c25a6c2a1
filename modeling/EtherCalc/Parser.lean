import EtherCalc.Parser.Level
import EtherCalc.Taken
import EtherCalc.Token.Lexer

namespace EtherCalc

/-!
From the lexemes of a source to its expression.

Each function reads one construct from the front of a list of lexemes and returns it together
with the rest.  `room` is the number of nesting steps still allowed: an operator sign, an
operator between operands, a member, an index, a call and a pair of parentheses each take one
step, and what they took is given back when the construct is complete.  No function relies on
`room` to end: each call is on a shorter list, or on the same list for a tighter construct.
-/

namespace Parser

/-- Why the lexemes are no expression, and those from the place of the fault on. -/
structure Refusal where
  fault : ParseFault
  rest : List Lexeme
deriving DecidableEq, Repr

/-- The byte at which a refusal is reported: the start of a lexeme or the end of the source. -/
def Refusal.offset (source : String) (refusal : Refusal) : Nat :=
  match refusal.rest with
  | [] => source.utf8ByteSize
  | next :: _ => next.start

/-- What is shorter than the rest of a list stays below a bound for the whole list. -/
theorem below_cons {α : Type} {next : α} {rest rest' : List α}
    (shorter : rest'.length < rest.length) : rest'.length + 1 ≤ (next :: rest).length + 1 :=
  Nat.le_succ_of_le (Nat.le_succ_of_le shorter)

def expect (wanted : Token) (tokens : List Lexeme) :
    Except Refusal (Taken String Lexeme tokens.length) :=
  match tokens with
  | [] => .error ⟨.endOfInput, []⟩
  | next :: rest =>
      if next.token = wanted then .ok ⟨next.text, rest, Nat.lt_succ_self _⟩
      else .error ⟨.expected wanted next.token, next :: rest⟩

/-- A literal with the denomination that follows it, if one does. -/
def withUnit (literal : Expr) (tokens : List Lexeme) :
    Taken Expr Lexeme (tokens.length + 1) :=
  match tokens with
  | [] => ⟨literal, [], Nat.lt_succ_self _⟩
  | next :: rest =>
      match if next.token = .name then Denomination.ofWord? next.text else none with
      | some unit => ⟨.amount literal unit, rest, Nat.lt_succ_of_lt (Nat.lt_succ_self _)⟩
      | none => ⟨literal, next :: rest, Nat.lt_succ_self _⟩

/-- A scientific literal is written with one `e` between its parts. -/
def scientificParts (text : String) : Expr :=
  let isMark (c : Char) := c == 'e' || c == 'E'
  .scientific (String.ofList (text.toList.takeWhile (!isMark ·)))
    (String.ofList ((text.toList.dropWhile (!isMark ·)).drop 1))

mutual

/-- A chain of operands with the operators of one level between them. -/
def chain (limit : Nat) (level : Level) (room : Nat) (tokens : List Lexeme) :
    Except Refusal (Taken Expr Lexeme tokens.length) :=
  match operand limit level room tokens with
  | .error refusal => .error refusal
  | .ok ⟨first, rest, shorter⟩ =>
      match chainRest limit level room first rest with
      | .error refusal => .error refusal
      | .ok taken => .ok (taken.within shorter)
termination_by (tokens.length, 2 * level.height + 4)

def operand (limit : Nat) (level : Level) (room : Nat) (tokens : List Lexeme) :
    Except Refusal (Taken Expr Lexeme tokens.length) :=
  match isNext : level.tighter? with
  | some next =>
      have _closer := Level.height_tighter isNext
      chain limit next room tokens
  | none => unary limit room tokens
termination_by (tokens.length, 2 * level.height + 3)

def chainRest (limit : Nat) (level : Level) (room : Nat) (left : Expr)
    (tokens : List Lexeme) : Except Refusal (Taken Expr Lexeme (tokens.length + 1)) :=
  match tokens with
  | [] => .ok ⟨left, [], Nat.lt_succ_self _⟩
  | next :: rest =>
      match level.operator? next.token with
      | none => .ok ⟨left, next :: rest, Nat.lt_succ_self _⟩
      | some op =>
          match room with
          | 0 => .error ⟨.tooDeep limit, rest⟩
          | room + 1 =>
              match operand limit level room rest with
              | .error refusal => .error refusal
              | .ok ⟨right, rest', shorter⟩ =>
                  match chainRest limit level room (.binary op left right) rest' with
                  | .error refusal => .error refusal
                  | .ok taken => .ok (taken.within (below_cons shorter))
termination_by (tokens.length, 0)

/-- An operand with any number of signs before it. -/
def unary (limit : Nat) (room : Nat) (tokens : List Lexeme) :
    Except Refusal (Taken Expr Lexeme tokens.length) :=
  match tokens with
  | [] => .error ⟨.endOfInput, []⟩
  | next :: rest =>
      match next.token with
      | .mark .bang =>
          match room with
          | 0 => .error ⟨.tooDeep limit, rest⟩
          | room + 1 =>
              match unary limit room rest with
              | .error refusal => .error refusal
              | .ok taken => .ok ((taken.map .not).within (Nat.le_succ _))
      | .mark .minus =>
          match room with
          | 0 => .error ⟨.tooDeep limit, rest⟩
          | room + 1 =>
              match unary limit room rest with
              | .error refusal => .error refusal
              | .ok taken => .ok ((taken.map .negate).within (Nat.le_succ _))
      | _ => applied limit room (next :: rest)
termination_by (tokens.length, 2)

/-- An atom with the members, indices and calls that follow it. -/
def applied (limit : Nat) (room : Nat) (tokens : List Lexeme) :
    Except Refusal (Taken Expr Lexeme tokens.length) :=
  match atom limit room tokens with
  | .error refusal => .error refusal
  | .ok ⟨target, rest, shorter⟩ =>
      match appliedRest limit room target rest with
      | .error refusal => .error refusal
      | .ok taken => .ok (taken.within shorter)
termination_by (tokens.length, 1)

def appliedRest (limit : Nat) (room : Nat) (target : Expr) (tokens : List Lexeme) :
    Except Refusal (Taken Expr Lexeme (tokens.length + 1)) :=
  match tokens with
  | [] => .ok ⟨target, [], Nat.lt_succ_self _⟩
  | next :: rest =>
      match next.token with
      | .mark .dot =>
          match room with
          | 0 => .error ⟨.tooDeep limit, rest⟩
          | room + 1 =>
              match expect .name rest with
              | .error refusal => .error refusal
              | .ok ⟨name, rest', shorter⟩ =>
                  match appliedRest limit room (.member target name) rest' with
                  | .error refusal => .error refusal
                  | .ok taken => .ok (taken.within (below_cons shorter))
      | .mark .openBracket =>
          match room with
          | 0 => .error ⟨.tooDeep limit, rest⟩
          | room + 1 =>
              match chain limit .disjunction room rest with
              | .error refusal => .error refusal
              | .ok ⟨position, rest', shorter⟩ =>
                  match expect (.mark .closeBracket) rest' with
                  | .error refusal => .error refusal
                  | .ok ⟨_, rest'', shorter'⟩ =>
                      match appliedRest limit room (.index target position) rest'' with
                      | .error refusal => .error refusal
                      | .ok taken => .ok (taken.within (below_cons (Nat.lt_trans shorter' shorter)))
      | .mark .openParen =>
          match room with
          | 0 => .error ⟨.tooDeep limit, rest⟩
          | room + 1 =>
              match arguments limit room rest with
              | .error refusal => .error refusal
              | .ok ⟨args, rest', shorter⟩ =>
                  match appliedRest limit room (.call target args) rest' with
                  | .error refusal => .error refusal
                  | .ok taken => .ok (taken.within (below_cons shorter))
      | _ => .ok ⟨target, next :: rest, Nat.lt_succ_self _⟩
termination_by (tokens.length, 0)

/-- The arguments of a call, after its opening parenthesis. -/
def arguments (limit : Nat) (room : Nat) (tokens : List Lexeme) :
    Except Refusal (Taken (List Expr) Lexeme tokens.length) :=
  match tokens with
  | [] => .error ⟨.endOfInput, []⟩
  | next :: rest =>
      if next.token = .mark .closeParen then .ok ⟨[], rest, Nat.lt_succ_self _⟩
      else someArguments limit room (next :: rest)
termination_by (tokens.length, 2 * Level.disjunction.height + 6)

def someArguments (limit : Nat) (room : Nat) (tokens : List Lexeme) :
    Except Refusal (Taken (List Expr) Lexeme tokens.length) :=
  match chain limit .disjunction room tokens with
  | .error refusal => .error refusal
  | .ok ⟨_, [], _⟩ => .error ⟨.endOfInput, []⟩
  | .ok ⟨first, next :: rest, shorter⟩ =>
      have fewer : rest.length < tokens.length := Nat.lt_trans (Nat.lt_succ_self _) shorter
      match next.token with
      | .mark .comma =>
          match someArguments limit room rest with
          | .error refusal => .error refusal
          | .ok taken => .ok ((taken.map (first :: ·)).within (Nat.le_of_lt fewer))
      | .mark .closeParen => .ok ⟨[first], rest, fewer⟩
      | found => .error ⟨.unseparated found, next :: rest⟩
termination_by (tokens.length, 2 * Level.disjunction.height + 5)

/-- A literal, a name or an expression in parentheses. -/
def atom (limit : Nat) (room : Nat) (tokens : List Lexeme) :
    Except Refusal (Taken Expr Lexeme tokens.length) :=
  match tokens with
  | [] => .error ⟨.endOfInput, []⟩
  | next :: rest =>
      match next.token with
      | .decimal | .hex => .ok (withUnit (.number next.text) rest)
      | .scientific => .ok (withUnit (scientificParts next.text) rest)
      | .string => .ok ⟨.string next.text, rest, Nat.lt_succ_self _⟩
      | .name => .ok ⟨.ofName next.text, rest, Nat.lt_succ_self _⟩
      | .mark .openParen =>
          match room with
          | 0 => .error ⟨.tooDeep limit, rest⟩
          | room + 1 =>
              match chain limit .disjunction room rest with
              | .error refusal => .error refusal
              | .ok ⟨inner, rest', shorter⟩ =>
                  match expect (.mark .closeParen) rest' with
                  | .error refusal => .error refusal
                  | .ok ⟨_, rest'', shorter'⟩ =>
                      .ok ⟨inner, rest'', Nat.lt_succ_of_lt (Nat.lt_trans shorter' shorter)⟩
      | found => .error ⟨.unexpected found, next :: rest⟩
termination_by (tokens.length, 0)

end

def parseTokens (limit : Nat) (tokens : List Lexeme) : Except Refusal Expr :=
  match chain limit .disjunction limit tokens with
  | .error refusal => .error refusal
  | .ok ⟨expr, [], _⟩ => .ok expr
  | .ok ⟨_, next :: rest, _⟩ => .error ⟨.trailing next.token, next :: rest⟩

/-- The expression that a source text spells, nested no deeper than the limit. -/
def parse (limit : Nat) (source : String) : Except ParseError Expr :=
  match lexemes source with
  | .error error => .error error
  | .ok tokens =>
      match parseTokens limit tokens with
      | .error refusal => .error (.atOffset source (refusal.offset source) refusal.fault)
      | .ok expr => .ok expr

end Parser

end EtherCalc
