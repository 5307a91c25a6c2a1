import EtherCalc.Text.Quoted
import EtherCalc.Value

namespace EtherCalc.Value

/-!
Values as text.  `display` is what a result is shown as.  `describe` shows a value inside
another one or in a log: strings are quoted there, and integers of any size end in `n`.
-/

mutual

def describe : Value → String
  | .undefined => "undefined"
  | .bool value => if value then "true" else "false"
  | .int value => toString value.toInt
  | .big value => toString value ++ "n"
  | .string text => quoted text
  | .array _ items => "[" ++ ", ".intercalate (describeAll items) ++ "]"
  | .object _ typeName fields =>
      typeName ++ " \x7b" ++ ",".intercalate (describeFields fields) ++ " \x7d"
  | .host _ resource => resource.label
  | .function code => "<fn " ++ code.name ++ ">"
  | .method _ _ code => "<method " ++ code.name ++ ">"
termination_by structural value => value

def describeAll : List Value → List String
  | [] => []
  | value :: rest => value.describe :: describeAll rest
termination_by structural values => values

def describeFields : List (String × Value) → List String
  | [] => []
  | (name, value) :: rest => (" " ++ name ++ ": " ++ value.describe) :: describeFields rest
termination_by structural fields => fields

end

mutual

def display : Value → String
  | .big value => toString value
  | .string text => text
  | .array _ items => "[" ++ ", ".intercalate (displayAll items) ++ "]"
  | .host _ resource => "<" ++ resource.typeName ++ ">"
  | .undefined => describe .undefined
  | .bool value => describe (.bool value)
  | .int value => describe (.int value)
  | .object id typeName fields => describe (.object id typeName fields)
  | .function code => describe (.function code)
  | .method receiverId receiver code => describe (.method receiverId receiver code)
termination_by structural value => value

def displayAll : List Value → List String
  | [] => []
  | value :: rest => value.display :: displayAll rest
termination_by structural values => values

end

end EtherCalc.Value
