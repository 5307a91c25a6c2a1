import EtherCalc.Value

namespace EtherCalc

/-- The variables of an evaluation, in the order in which they were first bound. -/
structure Context where
  bindings : List (String × Value)
  distinct : (Entries.names bindings).Nodup

namespace Context

def empty : Context :=
  ⟨[], by simp [Entries.names]⟩

/-- Binds a name; a name that is bound already keeps its place. -/
def define (context : Context) (name : String) (value : Value) : Context :=
  ⟨Entries.put name value context.bindings, Entries.nodup_names_put context.distinct⟩

def get? (context : Context) (name : String) : Option Value :=
  Entries.find? name context.bindings

def contains (context : Context) (name : String) : Bool :=
  (context.get? name).isSome

def size (context : Context) : Nat :=
  context.bindings.length

def isEmpty (context : Context) : Bool :=
  context.bindings.isEmpty

/-- The least number above every identity in a bound value. -/
def nextId (context : Context) : Nat :=
  Value.nextIdFields context.bindings

def ofList (bindings : List (String × Value)) : Context :=
  bindings.foldl (fun context binding => context.define binding.1 binding.2) empty

theorem get?_define {context : Context} {name key : String} {value : Value} :
    (context.define name value).get? key = if key = name then some value else context.get? key :=
  Entries.find?_put

end Context

end EtherCalc
