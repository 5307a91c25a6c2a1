import EtherCalc.Host
import EtherCalc.Value.Text

namespace EtherCalc

/-!
A host with small functions and objects of every kind: functions that report what they were
given, functions that fail, functions that read properties and elements or call on, a ledger
with accounts, and endless square numbers.
-/

namespace Routine

def undefined : Routine := ⟨"undefined"⟩

def count : Routine := ⟨"count"⟩

def first : Routine := ⟨"first"⟩

def list : Routine := ⟨"list"⟩

def concat : Routine := ⟨"concat"⟩

def this : Routine := ⟨"this"⟩

def kind : Routine := ⟨"kind"⟩

def constant (value : Bool) : Routine := ⟨if value then "true" else "false"⟩

def sum : Routine := ⟨"sum"⟩

def fail : Routine := ⟨"fail"⟩

def divideByZero : Routine := ⟨"divide by zero"⟩

def get : Routine := ⟨"get"⟩

def index : Routine := ⟨"index"⟩

def apply : Routine := ⟨"apply"⟩

def sealed : Routine := ⟨"sealed"⟩

def squares : Routine := ⟨"squares"⟩

def ledger : Routine := ⟨"ledger"⟩

end Routine

namespace HostObject

/-- Nothing about the object is known. -/
def sealed : HostObject :=
  ⟨"host object", "Opaque", .sealed, []⟩

/-- The square numbers. -/
def squares : HostObject :=
  ⟨"host object", "Squares!", .squares, []⟩

/-- Accounts with a balance each. -/
def ledger (balances : List Int64) : HostObject :=
  ⟨"Ledger", "Ledger#" ++ toString balances.length, .ledger, balances⟩

end HostObject

namespace Host.Standard

/-- The properties of a ledger. -/
def ledgerProperty (balances : List Int64) (name : String) : Run (Option Value) :=
  match name with
  | "count" => pure (some (Integer.toValue balances.length))
  | "total" =>
      pure (some (.big (balances.foldl (fun total balance => total + balance.toInt) 0)))
  | "nothing" => pure (some .undefined)
  | "at" => do
      let id ← Run.freshId
      pure (some (.function ⟨id, "at", 1, .index⟩))
  | _ => pure none

def ledgerItem (balances : List Int64) (position : Nat) : Run Value :=
  match balances[position]? with
  | some balance => pure (.int balance)
  | none => Run.fail (.indexOutOfRange position (some balances.length))

/-- Only ledgers have properties. -/
def property (object : HostObject) (name : String) : Run (Option Value) :=
  if object.routine = .ledger then ledgerProperty object.contents name else pure none

def item (object : HostObject) (position : Nat) : Run Value :=
  if object.routine = .ledger then ledgerItem object.contents position
  else if object.routine = .squares then pure (.big (position * position))
  else Run.fail (.notIndexable object.typeName)

def objects : ObjectHost where
  property := property
  item := item

/-- The sum of integers after one that is already known; the first value that is no integer
fails. -/
def sumAfter (total : Int) : List Value → Except EvalError Int
  | [] => .ok total
  | value :: rest =>
      match value.toInteger with
      | .error error => .error error
      | .ok integer => sumAfter (total + integer) rest

/-- The `base` field of the receiver, zero if it has none, and the arguments added up. -/
def sum (receiver : Value) (args : List Value) : Except EvalError Value :=
  match receiver with
  | .object _ _ fields =>
      (sumAfter 0 ((Entries.find? "base" fields).getD (.int 0) :: args)).map .big
  | _ => .error (.host "sum called without a receiver")

def first (args : List Value) : Value :=
  args.headD .undefined

/-- What a function does. -/
inductive Task where
  | undefined
  | count
  | first
  | list
  | concat
  | this
  | kind
  | constant (value : Bool)
  | sum
  | fail
  | divideByZero
  | get
  | index
  | apply
deriving DecidableEq, Repr

def tasks : List (Routine × Task) :=
  [(.undefined, .undefined), (.count, .count), (.first, .first), (.list, .list),
    (.concat, .concat), (.this, .this), (.kind, .kind), (.constant true, .constant true),
    (.constant false, .constant false), (.sum, .sum), (.fail, .fail),
    (.divideByZero, .divideByZero), (.get, .get), (.index, .index), (.apply, .apply)]

/-- The task that goes by the name of a routine.  Of another name there is nothing to do. -/
def Task.of (routine : Routine) : Task :=
  (tasks.lookup routine).getD .undefined

def perform (task : Task) (receiver : Value) (args : List Value) : Run Value :=
  match task, args with
  | .apply, callee :: rest =>
      Value.call (fun code receiver => perform (.of code.routine) receiver rest) rest callee
  | .apply, [] | .undefined, _ => pure .undefined
  | .count, _ => pure (Integer.toValue args.length)
  | .first, _ => pure (first args)
  | .list, _ => do
      let id ← Run.freshId
      pure (.array id args)
  | .concat, _ => pure (.string (String.join (Value.displayAll args)))
  | .this, _ => pure receiver
  | .kind, _ => pure (.string receiver.typeName)
  | .constant value, _ => pure (.bool value)
  | .sum, _ => Run.ofExcept (sum receiver args)
  | .fail, _ => Run.fail (.host (" ".intercalate (Value.displayAll args)))
  | .divideByZero, _ => Run.fail .divisionByZero
  | .get, _ =>
      receiver.readProperty objects .error ((args.head?.map Value.display).getD "")
  | .index, _ => receiver.readItem objects (first args)
termination_by structural args

def invoke (code : Function) (receiver : Value) (args : List Value) : Run Value :=
  perform (.of code.routine) receiver args

end Host.Standard

def Host.standard : Host where
  toObjectHost := Host.Standard.objects
  invoke := Host.Standard.invoke

/-- The line that a log keeps of an event.  Only ledgers keep account of who reads them. -/
def Event.line? : Event → Option String
  | .called code receiver args =>
      some (code.name ++ "<" ++ receiver.typeName ++ ">(" ++
        ", ".intercalate (Value.describeAll args) ++ ")")
  | .read object property =>
      if object.routine = .ledger then some (object.typeName ++ "." ++ property) else none

end EtherCalc
