import EtherCalc.ParseError

namespace EtherCalc

/-!
Why a source text has no value.  Each constructor is one cause; the wording of all of them is in
`EvalError.message`, and `EvalError.report` shows a located error with its line of the source.
-/

/-- What a value was needed for that its type cannot serve. -/
inductive TypeFault where
  | notInteger (typeName : String)
  | operands (symbol leftType rightType : String)
  /-- Context data is no JSON object but JSON of another kind. -/
  | notBindings (kind : String)
deriving DecidableEq, Repr

def TypeFault.message : TypeFault → String
  | .notInteger typeName => "cannot convert " ++ typeName ++ " to an integer"
  | .operands symbol leftType rightType =>
      "cannot apply `" ++ symbol ++ "` to " ++ leftType ++ " and " ++ rightType
  | .notBindings kind => "context must be a JSON object, got " ++ kind

inductive EvalError where
  | parse (error : ParseError)
  /-- A grammar found `count` different expressions instead of one. -/
  | ambiguous (count : Nat)
  | invalidNumeral (text : String)
  | exponentOverflow (exponent : Int) (limit : Nat)
  | divisionByZero
  | notIndexable (typeName : String)
  | indexOutOfRange (position : Int) (length : Option Nat)
  | propertyNotFound (property typeName : String)
  | notCallable (typeName : String)
  | unboundVariable (name : String)
  | type (fault : TypeFault)
  | arityMismatch (name : String) (expected got : Nat)
  /-- A reason that the host words itself. -/
  | host (message : String)
deriving DecidableEq, Repr

namespace EvalError

def message : EvalError → String
  | .parse error => "Parse error: " ++ error.message
  | .ambiguous count =>
      "Ambiguous grammar: expected exactly one parse, found " ++ toString count
  | .invalidNumeral text => "Invalid numeric literal `" ++ text ++ "`"
  | .exponentOverflow exponent limit =>
      "Exponent " ++ toString exponent ++ " exceeds the maximum of " ++ toString limit
  | .divisionByZero => "Division by zero"
  | .notIndexable typeName => "Cannot index into " ++ typeName
  | .indexOutOfRange position none => "Index " ++ toString position ++ " out of range"
  | .indexOutOfRange position (some length) =>
      "Index " ++ toString position ++ " out of range for length " ++ toString length
  | .propertyNotFound property typeName =>
      "Property `" ++ property ++ "` not found on " ++ typeName
  | .notCallable typeName => "Value of type " ++ typeName ++ " is not callable"
  | .unboundVariable name => "Unbound variable `" ++ name ++ "`"
  | .type fault => "Type error: " ++ fault.message
  | .arityMismatch name expected got =>
      "Function `" ++ name ++ "` takes " ++ toString expected ++ " argument(s) but " ++
      toString got ++ " were supplied"
  | .host message => message

def location? : EvalError → Option Location
  | .parse error => error.location
  | _ => none

/-- The line of the source that holds a place, and a caret under its column. -/
def excerpt (source : String) (location : Location) : String :=
  "\n  " ++ lineText source location.line ++
  "\n  " ++ String.ofList (List.replicate (location.column - 1) ' ') ++ "^"

def report (source : String) (error : EvalError) : String :=
  match error.location? with
  | none => "error: " ++ error.message
  | some location => "error: " ++ error.message ++ excerpt source location

end EvalError

end EtherCalc
