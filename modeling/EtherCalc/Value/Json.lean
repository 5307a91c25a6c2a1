import EtherCalc.Binary64.Shortest
import EtherCalc.Context
import EtherCalc.EvalError
import EtherCalc.Integer
import EtherCalc.Json
import EtherCalc.Value.Text

namespace EtherCalc

/-!
JSON as values and values as JSON.  An integer too large for a machine word becomes one of any
size; a number that JSON holds in binary64 becomes the string of its text.
-/

namespace Value

mutual

/-- The value of JSON data and the first identity after those it takes, which start at
`nextId`. -/
def ofJson (nextId : Nat) : Json → Value × Nat
  | .null => (.undefined, nextId)
  | .bool value => (.bool value, nextId)
  | .number (.integer value) => (Integer.toValue value, nextId)
  | .number (.binary value) => (.string value.text, nextId)
  | .string text => (.string text, nextId)
  | .array items =>
      let found := ofJsons (nextId + 1) items
      (.array nextId found.1, found.2)
  | .object members =>
      let found := ofMembers (nextId + 1) members
      (.object nextId "object" found.1, found.2)
termination_by structural json => json

def ofJsons (nextId : Nat) : List Json → List Value × Nat
  | [] => ([], nextId)
  | json :: rest =>
      let first := ofJson nextId json
      let others := ofJsons first.2 rest
      (first.1 :: others.1, others.2)
termination_by structural jsons => jsons

def ofMembers (nextId : Nat) : List (String × Json) → List (String × Value) × Nat
  | [] => ([], nextId)
  | (name, json) :: rest =>
      let first := ofJson nextId json
      let others := ofMembers first.2 rest
      ((name, first.1) :: others.1, others.2)
termination_by structural members => members

end

mutual

/-- A value as JSON.  What JSON has no form for is shown as a string. -/
def toJson : Value → Json
  | .undefined => .null
  | .bool value => .bool value
  | .int value => .number (.integer value.toInt)
  | .big value =>
      match Integer.narrow? value with
      | some word => .number (.integer word.toInt)
      | none => .string (toString value)
  | .string text => .string text
  | .array _ items => .array (toJsons items)
  | .object _ _ fields => .object (Json.sorted (toMembers fields))
  | .host id resource => .string (display (.host id resource))
  | .function code => .string (display (.function code))
  | .method receiverId receiver code => .string (display (.method receiverId receiver code))
termination_by structural value => value

def toJsons : List Value → List Json
  | [] => []
  | value :: rest => value.toJson :: toJsons rest
termination_by structural values => values

def toMembers : List (String × Value) → List (String × Json)
  | [] => []
  | (name, value) :: rest => (name, value.toJson) :: toMembers rest
termination_by structural fields => fields

end

end Value

/-- The context that binds the members of a JSON object. -/
def Context.ofJson : Json → Except EvalError Context
  | .object members => .ok (.ofList (Value.ofMembers 0 members).1)
  | other => .error (.type (.notBindings other.kind))

end EtherCalc
