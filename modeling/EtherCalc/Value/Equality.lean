import EtherCalc.Value

namespace EtherCalc.Value

/-!
When two values are equal.  `same` looks into arrays, objects and receivers, whatever their
identities; `identical` is what the operators of the language use, and looks at identities only.
Neither ever holds between an integer of one word and one of any size.
-/

mutual

/-- Equality of contents.  The order of an object's fields does not matter. -/
def same : Value → Value → Bool
  | .undefined, .undefined => true
  | .bool left, .bool right => left == right
  | .int left, .int right => left == right
  | .big left, .big right => left == right
  | .string left, .string right => left == right
  | .array _ left, .array _ right => sameAll left right
  | .object _ leftType left, .object _ rightType right =>
      leftType == rightType && left.length == right.length && sameFields left right
  | .host left _, .host right _ => left == right
  | .function left, .function right => left.id == right.id
  | .method _ leftReceiver left, .method _ rightReceiver right =>
      left.id == right.id && same leftReceiver rightReceiver
  | _, _ => false
termination_by structural value => value

def sameAll : List Value → List Value → Bool
  | [], [] => true
  | left :: lefts, right :: rights => same left right && sameAll lefts rights
  | _, _ => false
termination_by structural values => values

/-- Every field on the left has an equal one of the same name among `others`. -/
def sameFields : List (String × Value) → List (String × Value) → Bool
  | [], _ => true
  | (name, value) :: rest, others =>
      (match Entries.find? name others with
        | none => false
        | some other => same value other) && sameFields rest others
termination_by structural fields => fields

end

/-- Equality of scalars and of identities. -/
def identical : Value → Value → Bool
  | .undefined, .undefined => true
  | .bool left, .bool right => left == right
  | .int left, .int right => left == right
  | .string left, .string right => left == right
  | .array left _, .array right _ => left == right
  | .object left _ _, .object right _ _ => left == right
  | .host left _, .host right _ => left == right
  | .function left, .function right => left.id == right.id
  | .method leftReceiver _ left, .method rightReceiver _ right =>
      left.id == right.id && leftReceiver == rightReceiver
  | _, _ => false

end EtherCalc.Value
