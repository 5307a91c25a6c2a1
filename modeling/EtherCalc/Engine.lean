import EtherCalc.Grammar
import EtherCalc.Program.Execution
import EtherCalc.Text.Quoted

namespace EtherCalc

/-!
From a source text to its value.  An `Engine` compiles sources under one configuration and one
grammar; the `Evaluator` that it makes of a source can be run in any number of contexts.
-/

structure Evaluator where
  source : String
  config : Config
  program : Program

structure Engine where
  config : Config
  grammar : Grammar

namespace Evaluator

def run (host : Host) (context : Context) (evaluator : Evaluator) : Run Value :=
  evaluator.program.run host context

/-- The value of the source in a context, with identities that are new to the context. -/
def evaluate (host : Host) (context : Context) (evaluator : Evaluator) : Outcome Value :=
  evaluator.run host context context.nextId

def describe (evaluator : Evaluator) : String :=
  "Evaluator \x7b source: " ++ quoted evaluator.source ++
  ", config: " ++ evaluator.config.describe ++ ", .. \x7d"

end Evaluator

namespace Engine

def ofConfig (config : Config) : Engine :=
  ⟨config, .builtin⟩

/-- Refuses the trees of which one is too tall. -/
def checkDepths (limit : Nat) : List Expr → Except ParseError Unit
  | [] => .ok ()
  | expr :: rest =>
      match expr.checkDepth limit with
      | .error error => .error error
      | .ok () => checkDepths limit rest

/-- Compiles a source.  Heights are checked before anything walks down the trees. -/
def parse (engine : Engine) (source : String) : Except EvalError Evaluator :=
  match engine.grammar.feed engine.config source with
  | .error error => .error (.parse error)
  | .ok forest =>
      let candidates := Nested.leaves forest
      match checkDepths engine.config.maxDepth candidates with
      | .error error => .error (.parse error)
      | .ok () =>
          match Grammar.single candidates with
          | .error error => .error error
          | .ok expr =>
              match Program.compile engine.config expr with
              | .error error => .error error
              | .ok program => .ok ⟨source, engine.config, program⟩

def evaluate (host : Host) (context : Context) (engine : Engine) (source : String) :
    Outcome Value :=
  match engine.parse source with
  | .error error => ⟨.error error, [], context.nextId⟩
  | .ok evaluator => evaluator.evaluate host context

/-- The engine as text, with the number of sources in its cache. -/
def describe (engine : Engine) (cached : Nat) : String :=
  "Engine \x7b config: " ++ engine.config.describe ++
  ", cached: " ++ toString cached ++ ", .. \x7d"

end Engine

end EtherCalc
