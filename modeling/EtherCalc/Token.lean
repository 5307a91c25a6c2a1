namespace EtherCalc

/-!
Tokens of the expression language.  A `Token` is the kind of a token; a `Lexeme` is one
occurrence of it in a source text, with its spelling and the byte at which it starts.
-/

/-- Operators, brackets and separators: the tokens with one spelling each. -/
inductive Mark where
  | openParen
  | closeParen
  | openBracket
  | closeBracket
  | comma
  | dot
  | plus
  | minus
  | star
  | slash
  | bang
  | andAnd
  | orOr
  | equal
  | notEqual
  | lessEqual
  | greaterEqual
  | less
  | greater
deriving DecidableEq, Repr

def Mark.spelling : Mark → String
  | .openParen => "("
  | .closeParen => ")"
  | .openBracket => "["
  | .closeBracket => "]"
  | .comma => ","
  | .dot => "."
  | .plus => "+"
  | .minus => "-"
  | .star => "*"
  | .slash => "/"
  | .bang => "!"
  | .andAnd => "&&"
  | .orOr => "||"
  | .equal => "=="
  | .notEqual => "!="
  | .lessEqual => "<="
  | .greaterEqual => ">="
  | .less => "<"
  | .greater => ">"

inductive Token where
  | hex
  | scientific
  | decimal
  | string
  | name
  | mark (symbol : Mark)
deriving DecidableEq, Repr

/-- How an error message calls a token. -/
def Token.describe : Token → String
  | .hex => "hex literal"
  | .scientific => "scientific literal"
  | .decimal => "number"
  | .string => "string"
  | .name => "identifier"
  | .mark symbol => "`" ++ symbol.spelling ++ "`"

/-- A token where it occurs in a source text. -/
structure Lexeme where
  token : Token
  text : String
  start : Nat
deriving DecidableEq, Repr

/-- The byte after the last one of the lexeme. -/
def Lexeme.stop (lexeme : Lexeme) : Nat :=
  lexeme.start + lexeme.text.utf8ByteSize

end EtherCalc
