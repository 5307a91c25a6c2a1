import EtherCalc.Binary64

namespace EtherCalc

/-!
JSON values.  The members of an object are kept sorted by name, each name once.
-/

namespace Json

/-- A number: an integer of at most 64 bits with or without sign, or a binary64 number. -/
inductive Number where
  | integer (value : Int)
  | binary (value : Binary64)
deriving DecidableEq, Repr

/-- The members with `value` under `name`, in the order of names. -/
def putSorted {α : Type} (name : String) (value : α) :
    List (String × α) → List (String × α)
  | [] => [(name, value)]
  | (key, old) :: rest =>
      if name < key then (name, value) :: (key, old) :: rest
      else if name = key then (name, value) :: rest
      else (key, old) :: putSorted name value rest

/-- The members sorted by name; of several with one name the last stays. -/
def sorted {α : Type} (members : List (String × α)) : List (String × α) :=
  members.foldl (fun found member => putSorted member.1 member.2 found) []

end Json

inductive Json where
  | null
  | bool (value : Bool)
  | number (value : Json.Number)
  | string (text : String)
  | array (items : List Json)
  | object (members : List (String × Json))

/-- How a message calls the kind of a JSON value. -/
def Json.kind : Json → String
  | .null => "null"
  | .bool _ => "bool"
  | .number _ => "number"
  | .string _ => "string"
  | .array _ => "array"
  | .object _ => "object"

end EtherCalc
