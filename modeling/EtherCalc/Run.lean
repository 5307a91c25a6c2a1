import EtherCalc.EvalError
import EtherCalc.Value

namespace EtherCalc

/-!
Computations that may call host code.

A run starts from the first identity that is not in use and ends with a value or an error, the
calls and property reads that it made, in order, and the first identity then not in use.  What
was done before an error stays in the record.
-/

/-- Something that host code was asked to do. -/
inductive Event where
  | called (function : Function) (receiver : Value) (args : List Value)
  | read (object : HostObject) (property : String)

structure Outcome (α : Type) where
  result : Except EvalError α
  events : List Event
  nextId : Nat

/-- A computation, as a function of the first identity not in use. -/
def Run (α : Type) : Type := Nat → Outcome α

namespace Run

variable {α β : Type}

def pure (value : α) : Run α :=
  fun nextId => ⟨.ok value, [], nextId⟩

/-- Runs the second computation on the value of the first, unless that fails. -/
def bind (first : Run α) (second : α → Run β) : Run β := fun nextId =>
  let before := first nextId
  match before.result with
  | .error error => ⟨.error error, before.events, before.nextId⟩
  | .ok value =>
      let after := second value before.nextId
      ⟨after.result, before.events ++ after.events, after.nextId⟩

instance : Monad Run where
  pure := Run.pure
  bind := Run.bind

def fail (error : EvalError) : Run α :=
  fun nextId => ⟨.error error, [], nextId⟩

def ofExcept : Except EvalError α → Run α
  | .ok value => pure value
  | .error error => fail error

/-- An identity that was not in use. -/
def freshId : Run Nat :=
  fun nextId => ⟨.ok nextId, [], nextId + 1⟩

def record (event : Event) : Run Unit :=
  fun nextId => ⟨.ok (), [event], nextId⟩

end Run

end EtherCalc
