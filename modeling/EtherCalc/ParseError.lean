import EtherCalc.Text.Location
import EtherCalc.Token

namespace EtherCalc

/-!
Why a source text is not an expression, and where.  The reason is a `ParseFault`; its wording
is decided in `ParseFault.message` alone.
-/

inductive ParseFault where
  /-- No token starts here; `text` is what cannot be read. -/
  | unreadable (text : String)
  | endOfInput
  | unexpected (found : Token)
  /-- A complete expression is followed by something else. -/
  | trailing (found : Token)
  | expected (wanted found : Token)
  /-- An argument is followed by neither a comma nor the closing parenthesis. -/
  | unseparated (found : Token)
  | tooDeep (limit : Nat)
  /-- A reason that a grammar words itself. -/
  | custom (message : String)
deriving DecidableEq, Repr

def ParseFault.message : ParseFault → String
  | .unreadable text => "unexpected character `" ++ text ++ "`"
  | .endOfInput => "unexpected end of input"
  | .unexpected found => "unexpected " ++ found.describe
  | .trailing found => "unexpected " ++ found.describe ++ " after expression"
  | .expected wanted found => "expected " ++ wanted.describe ++ ", found " ++ found.describe
  | .unseparated found => "expected `,` or `)`, found " ++ found.describe
  | .tooDeep limit => "expression nested too deeply (limit " ++ toString limit ++ ")"
  | .custom message => message

/-- A fault with its place in the source, where there is one. -/
structure ParseError where
  fault : ParseFault
  location : Option Location
deriving DecidableEq, Repr

namespace ParseError

def unlocated (fault : ParseFault) : ParseError :=
  ⟨fault, none⟩

def atOffset (source : String) (offset : Nat) (fault : ParseFault) : ParseError :=
  ⟨fault, some (Location.ofOffset source offset)⟩

def message (error : ParseError) : String :=
  match error.location with
  | none => error.fault.message
  | some location =>
      error.fault.message ++ " at " ++ toString location.line ++ ":" ++ toString location.column

end ParseError

end EtherCalc
