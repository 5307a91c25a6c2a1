import EtherCalc.Engine

namespace EtherCalc

/-!
Compiled sources that are kept.  A source that compiles is compiled once; one that does not is
tried again each time.
-/

/-- The evaluators under the sources that they were made of. -/
abbrev Cache : Type := List (String × Evaluator)

/-- The evaluator of a source, from the cache if it is there, and the cache with it. -/
def Cache.parse (engine : Engine) (cache : Cache) (source : String) :
    Except EvalError Evaluator × Cache :=
  match Entries.find? source cache with
  | some evaluator => (.ok evaluator, cache)
  | none =>
      match engine.parse source with
      | .error error => (.error error, cache)
      | .ok evaluator => (.ok evaluator, Entries.put source evaluator cache)

end EtherCalc
