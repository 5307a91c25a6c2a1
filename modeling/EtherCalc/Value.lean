import EtherCalc.Entries

namespace EtherCalc

/-!
Values of expressions.

Arrays, objects, host objects and functions have an identity, a number that copies of one value
share; so has the receiver that a method is bound to.  Expressions compare such values by
identity.  Host code is named, not contained: a function or an object of the host says which
`Routine` is behind it, and what that does is up to the host.
-/

/-- Code of the host, by the name that the host has for it. -/
structure Routine where
  name : String
deriving DecidableEq, Repr

/-- A function of the host.  A negative arity accepts any number of arguments. -/
structure Function where
  id : Nat
  name : String
  arity : Int
  routine : Routine
deriving DecidableEq, Repr

def Function.accepts (function : Function) (count : Nat) : Bool :=
  function.arity < 0 || function.arity == count

/-- An object of the host with code behind its properties and elements. -/
structure HostObject where
  typeName : String
  /-- The text that shows the object inside other values. -/
  label : String
  routine : Routine
  /-- What the code works with, in machine words. -/
  contents : List Int64
deriving DecidableEq, Repr

inductive Value where
  | undefined
  | bool (value : Bool)
  /-- An integer of one machine word. -/
  | int (value : Int64)
  /-- An integer of any size. -/
  | big (value : Int)
  | string (text : String)
  | array (id : Nat) (items : List Value)
  | object (id : Nat) (typeName : String) (fields : List (String × Value))
  | host (id : Nat) (resource : HostObject)
  | function (code : Function)
  | method (receiverId : Nat) (receiver : Value) (code : Function)

namespace Value

def typeName : Value → String
  | .undefined => "undefined"
  | .bool _ => "bool"
  | .int _ => "int"
  | .big _ => "bigint"
  | .string _ => "string"
  | .array _ _ => "array"
  | .object _ typeName _ => typeName
  | .host _ resource => resource.typeName
  | .function _ => "function"
  | .method _ _ _ => "method"

def isTruthy : Value → Bool
  | .undefined => false
  | .bool value => value
  | .int value => value != 0
  | .big value => value != 0
  | .string text => !text.isEmpty
  | .array _ _ | .object _ _ _ | .host _ _ | .function _ | .method _ _ _ => true

def isUndefined : Value → Bool
  | .undefined => true
  | _ => false

def isInteger : Value → Bool
  | .int _ | .big _ => true
  | _ => false

def isString : Value → Bool
  | .string _ => true
  | _ => false

/-- The value is more than a scalar. -/
def isHost : Value → Bool
  | .array _ _ | .object _ _ _ | .host _ _ | .function _ | .method _ _ _ => true
  | _ => false

def isCallable : Value → Bool
  | .function _ | .method _ _ _ => true
  | _ => false

def bool? : Value → Option Bool
  | .bool value => some value
  | _ => none

def string? : Value → Option String
  | .string text => some text
  | _ => none

def items? : Value → Option (List Value)
  | .array _ items => some items
  | _ => none

/-- An integer of any size; the word-sized ones are not counted. -/
def big? : Value → Option Int
  | .big value => some value
  | _ => none

mutual

/-- The least number above every identity in the value. -/
def nextId : Value → Nat
  | .undefined | .bool _ | .int _ | .big _ | .string _ => 0
  | .array id items => max (id + 1) (nextIdAll items)
  | .object id _ fields => max (id + 1) (nextIdFields fields)
  | .host id _ => id + 1
  | .function code => code.id + 1
  | .method receiverId receiver code => max (receiverId + 1) (max receiver.nextId (code.id + 1))
termination_by structural value => value

def nextIdAll : List Value → Nat
  | [] => 0
  | value :: rest => max value.nextId (nextIdAll rest)
termination_by structural values => values

def nextIdFields : List (String × Value) → Nat
  | [] => 0
  | (_, value) :: rest => max value.nextId (nextIdFields rest)
termination_by structural fields => fields

end

end Value

end EtherCalc
