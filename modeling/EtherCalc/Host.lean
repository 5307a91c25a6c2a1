import EtherCalc.Config
import EtherCalc.Integer
import EtherCalc.Run

namespace EtherCalc

/-!
Where expressions meet host code: reading properties, indexing and calling.

A `Host` says what lies behind host objects and functions.  The functions here decide everything
else: which values have properties and elements, that a function read as a property is bound to
the value it was read from, and that no function runs with arguments its arity does not allow.
-/

/-- What lies behind host objects. -/
structure ObjectHost where
  property : HostObject → String → Run (Option Value)
  item : HostObject → Nat → Run Value

/-- What lies behind host objects and functions. -/
structure Host extends ObjectHost where
  invoke : Function → Value → List Value → Run Value

namespace Value

/-- The missing property as the policy has it. -/
def missingProperty (policy : UnboundPolicy) (base : Value) (name : String) : Run Value :=
  match policy with
  | .undefined => pure .undefined
  | .error => Run.fail (.propertyNotFound name base.typeName)

/-- The value found under a property.  A function is bound to the value it was read from. -/
def boundTo (base : Value) : Value → Run Value
  | .function code => do
      let receiverId ← Run.freshId
      pure (.method receiverId base code)
  | found => pure found

/-- The property of a value, if there is one; scalars other than strings never have any. -/
def property? (objects : ObjectHost) (name : String) : Value → Run (Option Value)
  | .object _ _ fields => pure (Entries.find? name fields)
  | .host _ resource => do
      Run.record (.read resource name)
      objects.property resource name
  | .array _ items =>
      pure (if name = "length" then some (Integer.toValue items.length) else none)
  | .string text =>
      pure (if name = "length" then some (Integer.toValue text.length) else none)
  | .function _ | .method _ _ _ => pure none
  | other => Run.fail (.propertyNotFound name other.typeName)

def readProperty (objects : ObjectHost) (policy : UnboundPolicy) (base : Value)
    (name : String) : Run Value := do
  match ← property? objects name base with
  | some found => boundTo base found
  | none => missingProperty policy base name

/-- The element at an index of a list, counted from zero. -/
def elementAt {α : Type} (items : List α) (index : Value) : Except EvalError α :=
  match index.toInteger with
  | .error error => .error error
  | .ok position =>
      match if 0 ≤ position then items[position.toNat]? else none with
      | some item => .ok item
      | none => .error (.indexOutOfRange position (some items.length))

/-- The position that an index names in a host object, of which only the host knows the
length.  A position has 64 bits. -/
def hostPosition (index : Value) : Except EvalError Nat :=
  match index.toInteger with
  | .error error => .error error
  | .ok position =>
      match Integer.count? position with
      | some count => .ok count
      | none => .error (.indexOutOfRange position none)

/-- Reads an element.  The elements of a string are its characters. -/
def readItem (objects : ObjectHost) (base index : Value) : Run Value :=
  match base with
  | .array _ items => Run.ofExcept (elementAt items index)
  | .string text =>
      Run.ofExcept ((elementAt text.toList index).map fun c => .string (String.singleton c))
  | .host _ resource => do
      let position ← Run.ofExcept (hostPosition index)
      objects.item resource position
  | other => Run.fail (.notIndexable other.typeName)

/-- Calls a function, or a method with the receiver it is bound to.  `body` runs the code; it
runs only on a number of arguments that the function accepts, and after the call is recorded. -/
def call (body : Function → Value → Run Value) (args : List Value) : Value → Run Value
  | .function code => enter code .undefined
  | .method _ receiver code => enter code receiver
  | other => Run.fail (.notCallable other.typeName)
where
  enter (code : Function) (receiver : Value) : Run Value :=
    if code.accepts args.length then do
      Run.record (.called code receiver args)
      body code receiver
    else Run.fail (.arityMismatch code.name code.arity.toNat args.length)

end Value

end EtherCalc
