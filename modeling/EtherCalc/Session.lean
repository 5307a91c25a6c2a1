import EtherCalc.Cache
import EtherCalc.Json.Reader
import EtherCalc.Value.Json

namespace EtherCalc

/-!
Sessions: several engines, the evaluators that they made, and a context for all of them.

Each engine keeps the sources that it compiled through the cache.  A copy of an engine shares the
cache with it, and an engine with another grammar starts an empty one; so a session holds its
caches apart from its engines, and an engine says which one it uses.
-/

/-- An engine and the number of its cache. -/
structure Station where
  engine : Engine
  cache : Nat

structure Session where
  caches : List Cache
  stations : List Station
  evaluators : List Evaluator
  context : Context

/-- What a session can be asked.  Engines and evaluators go by number. -/
inductive Request where
  | addEngine (config : Config) (grammar : Grammar)
  | copyEngine (engine : Nat)
  | replaceGrammar (engine : Nat) (grammar : Grammar)
  | parse (engine : Nat) (source : String)
  | parseCached (engine : Nat) (source : String)
  | clearCache (engine : Nat)
  | describeEngine (engine : Nat)
  | evaluate (engine : Nat) (source : String)
  | run (evaluator : Nat)
  | describeEvaluator (evaluator : Nat)
  | define (name : String) (value : Value)
  | get (name : String)
  | showContext
  | loadJson (text : String)
  | reset

inductive Answer where
  | done
  | engine (number : Nat)
  | evaluator (number : Nat)
  | config (config : Config)
  | text (text : String)
  | result (result : Except EvalError Value)
  | described (source : String) (config : Config) (text : String)
  | binding (value : Option Value)
  | bindings (bindings : List (String × Value))
  /-- The text is no JSON. -/
  | unreadable
  /-- There is no engine or evaluator of that number. -/
  | missing

namespace Session

def empty : Session :=
  ⟨[], [], [], .empty⟩

def cacheOf (session : Session) (station : Station) : Cache :=
  session.caches[station.cache]?.getD []

def cacheSizes (session : Session) : List Nat :=
  session.stations.map fun station => (session.cacheOf station).length

/-- The session with other contents in the cache of an engine, and so of all that share it. -/
def withCache (session : Session) (station : Station) (cache : Cache) : Session :=
  { session with caches := session.caches.set station.cache cache }

def addEvaluator (session : Session) (evaluator : Evaluator) : Session × Answer :=
  ({ session with evaluators := session.evaluators ++ [evaluator] },
    .evaluator session.evaluators.length)

def answerParsed (session : Session) : Except EvalError Evaluator → Session × Answer
  | .error error => (session, .result (.error error))
  | .ok evaluator => session.addEvaluator evaluator

/-- Answers a request that calls no host code. -/
def change (session : Session) (request : Request) : Session × Answer :=
  match request with
  | .addEngine config grammar =>
      ({ session with
          caches := session.caches ++ [[]]
          stations := session.stations ++ [⟨⟨config, grammar⟩, session.caches.length⟩] },
        .engine session.stations.length)
  | .copyEngine number =>
      match session.stations[number]? with
      | none => (session, .missing)
      | some station =>
          ({ session with stations := session.stations ++ [station] },
            .engine session.stations.length)
  | .replaceGrammar number grammar =>
      match session.stations[number]? with
      | none => (session, .missing)
      | some station =>
          let config := station.engine.config
          ({ session with
              caches := session.caches ++ [[]]
              stations :=
                session.stations.set number ⟨⟨config, grammar⟩, session.caches.length⟩ },
            .config config)
  | .parse number source =>
      match session.stations[number]? with
      | none => (session, .missing)
      | some station => session.answerParsed (station.engine.parse source)
  | .parseCached number source =>
      match session.stations[number]? with
      | none => (session, .missing)
      | some station =>
          let (parsed, cache) := (session.cacheOf station).parse station.engine source
          (session.withCache station cache).answerParsed parsed
  | .clearCache number =>
      match session.stations[number]? with
      | none => (session, .missing)
      | some station => (session.withCache station [], .done)
  | .describeEngine number =>
      match session.stations[number]? with
      | none => (session, .missing)
      | some station =>
          (session, .text (station.engine.describe (session.cacheOf station).length))
  | .describeEvaluator number =>
      match session.evaluators[number]? with
      | none => (session, .missing)
      | some evaluator =>
          (session, .described evaluator.source evaluator.config evaluator.describe)
  | .define name value =>
      ({ session with context := session.context.define name value }, .done)
  | .get name => (session, .binding (session.context.get? name))
  | .showContext => (session, .bindings session.context.bindings)
  | .loadJson text =>
      match Json.read? text with
      | none => (session, .unreadable)
      | some json =>
          match Context.ofJson json with
          | .error error => (session, .result (.error error))
          | .ok context => ({ session with context }, .done)
  | .reset => ({ session with context := .empty }, .done)
  | .evaluate _ _ | .run _ => (session, .missing)

/-- Answers a request.  Only evaluation calls host code, and it leaves the session as it is. -/
def perform (host : Host) (session : Session) (request : Request) :
    Session × Answer × List Event :=
  match request with
  | .evaluate number source =>
      match session.stations[number]? with
      | none => (session, .missing, [])
      | some station =>
          let outcome := station.engine.evaluate host session.context source
          (session, .result outcome.result, outcome.events)
  | .run number =>
      match session.evaluators[number]? with
      | none => (session, .missing, [])
      | some evaluator =>
          let outcome := evaluator.evaluate host session.context
          (session, .result outcome.result, outcome.events)
  | request =>
      let (session, answer) := session.change request
      (session, answer, [])

end Session

end EtherCalc
