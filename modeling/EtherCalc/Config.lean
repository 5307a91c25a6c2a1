namespace EtherCalc

/-- What becomes of names and properties that are not there. -/
inductive UnboundPolicy where
  | undefined
  | error
deriving DecidableEq, Repr

def UnboundPolicy.title : UnboundPolicy → String
  | .undefined => "Undefined"
  | .error => "Error"

/-- What one evaluation allows. -/
structure Config where
  unbound : UnboundPolicy
  /-- The largest exponent of a scientific literal. -/
  maxExponent : Nat
  /-- The greatest depth of a source text's nesting, and the greatest height of a tree. -/
  maxDepth : Nat
deriving DecidableEq, Repr

namespace Config

def default : Config := ⟨.undefined, 10000, 64⟩

/-- The configuration as the descriptions of engines and evaluators show it. -/
def describe (config : Config) : String :=
  "EvalConfig \x7b unbound: " ++ config.unbound.title ++
  ", max_exponent: " ++ toString config.maxExponent ++
  ", max_depth: " ++ toString config.maxDepth ++ " \x7d"

end Config

end EtherCalc
