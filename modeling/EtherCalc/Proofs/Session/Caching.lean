import EtherCalc.Host.Standard
import EtherCalc.Session
import Mathlib

/-!
The cache of an engine changes no answer.

Engines that share a cache are copies of one another, so what one of them compiled is what each of
them would compile.  `Coherent` says this of a session; every request keeps it.  A session that
compiles every source anew then gives the same answers, except where it is asked how much is
cached.
-/

namespace EtherCalc

/-- What the cache has under a source is what the engine makes of the source. -/
def Cache.Faithful (engine : Engine) (cache : Cache) : Prop :=
  ∀ source evaluator, Entries.find? source cache = some evaluator →
    engine.parse source = .ok evaluator

namespace Cache

variable {engine : Engine} {cache : Cache} {source : String}

theorem faithful_nil : Faithful engine [] :=
  nofun

theorem parse_result (faithful : Faithful engine cache) :
    (parse engine cache source).1 = engine.parse source := by
  unfold parse
  cases found : Entries.find? source cache with
  | some evaluator => exact (faithful source evaluator found).symm
  | none => cases engine.parse source <;> rfl

theorem parse_faithful (faithful : Faithful engine cache) :
    Faithful engine (parse engine cache source).2 := by
  unfold parse
  cases Entries.find? source cache with
  | some evaluator => exact faithful
  | none =>
      cases compiled : engine.parse source with
      | error error => exact faithful
      | ok evaluator =>
          intro key found same
          dsimp only at same
          rw [Entries.find?_put] at same
          split at same
          · rename_i here
            cases same
            rw [here, compiled]
          · exact faithful key found same

end Cache

namespace Session

/-- The session after some requests, with its answers to them and the calls of host code. -/
def performAll (host : Host) (session : Session) :
    List Request → Session × List (Answer × List Event)
  | [] => (session, [])
  | request :: rest =>
      let step := session.perform host request
      let later := performAll host step.1 rest
      (later.1, step.2 :: later.2)

/-- Engines with one cache are one engine, and every cache is faithful to the engines that use
it. -/
structure Coherent (session : Session) : Prop where
  inRange : ∀ station ∈ session.stations, station.cache < session.caches.length
  shared : ∀ station ∈ session.stations, ∀ other ∈ session.stations,
    station.cache = other.cache → station.engine = other.engine
  faithful : ∀ station ∈ session.stations, (session.cacheOf station).Faithful station.engine

variable {session other : Session} {station : Station} {host : Host}

theorem coherent_empty : Coherent empty :=
  ⟨nofun, nofun, nofun⟩

theorem Coherent.of_same (coherent : Coherent session) (caches : other.caches = session.caches)
    (stations : other.stations = session.stations) : Coherent other := by
  have cacheOf : other.cacheOf = session.cacheOf := by
    funext station
    rw [Session.cacheOf, Session.cacheOf, caches]
  refine ⟨?_, ?_, ?_⟩
  · rw [stations, caches]
    exact coherent.inRange
  · rw [stations]
    exact coherent.shared
  · rw [stations, cacheOf]
    exact coherent.faithful

/-- An engine with a new cache shares it with no other. -/
theorem Coherent.fresh (coherent : Coherent session) {engine : Engine} {stations : List Station}
    (known : ∀ station ∈ stations,
      station ∈ session.stations ∨ station = ⟨engine, session.caches.length⟩) :
    Coherent { session with caches := session.caches ++ [[]], stations } := by
  have apart : ∀ station ∈ session.stations, station.cache ≠ session.caches.length :=
    fun station member => Nat.ne_of_lt (coherent.inRange station member)
  refine ⟨?_, ?_, ?_⟩
  · intro station member
    rw [List.length_append, List.length_singleton]
    rcases known station member with old | rfl
    · exact Nat.lt_succ_of_lt (coherent.inRange station old)
    · exact Nat.lt_succ_self _
  · intro station member other memberOther same
    rcases known station member with old | rfl <;>
      rcases known other memberOther with oldOther | rfl
    · exact coherent.shared station old other oldOther same
    · exact absurd same (apart station old)
    · exact absurd same.symm (apart other oldOther)
    · rfl
  · intro station member
    rcases known station member with old | rfl
    · have same : (session.caches ++ [[]])[station.cache]? = session.caches[station.cache]? :=
        List.getElem?_append_left (coherent.inRange station old)
      have faithful := coherent.faithful station old
      rwa [cacheOf, ← same] at faithful
    · simp only [cacheOf, List.getElem?_concat_length, Option.getD_some]
      exact Cache.faithful_nil

theorem Coherent.copy (coherent : Coherent session) (member : station ∈ session.stations) :
    Coherent { session with stations := session.stations ++ [station] } := by
  have known : ∀ other ∈ session.stations ++ [station], other ∈ session.stations := by
    intro other found
    rcases List.mem_append.mp found with old | new
    · exact old
    · rwa [List.mem_singleton.mp new]
  exact ⟨fun first found => coherent.inRange first (known first found),
    fun first found second foundToo =>
      coherent.shared first (known first found) second (known second foundToo),
    fun first found => coherent.faithful first (known first found)⟩

theorem Coherent.withCache (coherent : Coherent session) (member : station ∈ session.stations)
    {cache : Cache} (faithful : cache.Faithful station.engine) :
    Coherent (session.withCache station cache) := by
  refine ⟨?_, coherent.shared, ?_⟩
  · intro other found
    rw [Session.withCache, List.length_set]
    exact coherent.inRange other found
  · intro other found
    by_cases same : other.cache = station.cache
    · have engines := coherent.shared other found station member same
      simp only [cacheOf, Session.withCache, same,
        List.getElem?_set_self (coherent.inRange station member), Option.getD_some]
      rwa [engines]
    · have unchanged := coherent.faithful other found
      simp only [cacheOf, Session.withCache, List.getElem?_set_ne (Ne.symm same)]
      exact unchanged

/-- What a request can do to a session. -/
inductive Step (session : Session) : Session → Prop where
  | kept {evaluators : List Evaluator} {context : Context}
      (more : session.evaluators <+: evaluators) :
      Step session { session with evaluators, context }
  | added {engine : Engine} {stations : List Station}
      (known : ∀ station ∈ stations,
        station ∈ session.stations ∨ station = ⟨engine, session.caches.length⟩) :
      Step session { session with caches := session.caches ++ [[]], stations }
  | copied {station : Station} (member : station ∈ session.stations) :
      Step session { session with stations := session.stations ++ [station] }
  | stored {station : Station} {cache : Cache} {evaluators : List Evaluator}
      (member : station ∈ session.stations)
      (filled : cache = [] ∨
        ∃ source, cache = (Cache.parse station.engine (session.cacheOf station) source).2)
      (more : session.evaluators <+: evaluators) :
      Step session { session.withCache station cache with evaluators }

theorem Step.refl (session : Session) : Step session session :=
  .kept (List.prefix_refl _)

theorem answerParsed_session (session : Session) (parsed : Except EvalError Evaluator) :
    ∃ evaluators, session.evaluators <+: evaluators ∧
      (session.answerParsed parsed).1 = { session with evaluators } := by
  cases parsed with
  | error error => exact ⟨_, List.prefix_refl _, rfl⟩
  | ok evaluator => exact ⟨_, List.prefix_append _ _, rfl⟩

theorem change_step (request : Request) : Step session (session.change request).1 := by
  cases request with
  | addEngine config grammar =>
      exact .added fun station member => (List.mem_append.mp member).imp_right List.mem_singleton.mp
  | copyEngine number =>
      simp only [change]
      cases found : session.stations[number]? with
      | none => exact .refl _
      | some station => exact .copied (List.mem_of_getElem? found)
  | replaceGrammar number grammar =>
      simp only [change]
      cases session.stations[number]? with
      | none => exact .refl _
      | some station => exact .added fun other member => List.mem_or_eq_of_mem_set member
  | parse number source =>
      simp only [change]
      cases session.stations[number]? with
      | none => exact .refl _
      | some station =>
          obtain ⟨evaluators, more, same⟩ :=
            session.answerParsed_session (station.engine.parse source)
          dsimp only
          rw [same]
          exact .kept more
  | parseCached number source =>
      simp only [change]
      cases found : session.stations[number]? with
      | none => exact .refl _
      | some station =>
          dsimp only
          obtain ⟨evaluators, more, same⟩ := answerParsed_session
            (session.withCache station (Cache.parse station.engine (session.cacheOf station) source).2)
            (Cache.parse station.engine (session.cacheOf station) source).1
          rw [same]
          exact .stored (List.mem_of_getElem? found) (.inr ⟨source, rfl⟩) more
  | clearCache number =>
      simp only [change]
      cases found : session.stations[number]? with
      | none => exact .refl _
      | some station => exact .stored (List.mem_of_getElem? found) (.inl rfl) (List.prefix_refl _)
  | describeEngine number =>
      simp only [change]
      cases session.stations[number]? <;> exact .refl _
  | describeEvaluator number =>
      simp only [change]
      cases session.evaluators[number]? <;> exact .refl _
  | loadJson text =>
      simp only [change]
      cases Json.read? text with
      | none => exact .refl _
      | some json =>
          dsimp only
          cases Context.ofJson json with
          | error error => exact .refl _
          | ok context => exact .kept (List.prefix_refl _)
  | define | reset => exact .kept (List.prefix_refl _)
  | get | showContext | evaluate | run => exact .refl _

theorem perform_step (request : Request) : Step session (session.perform host request).1 := by
  have changed : Step session (session.change request).1 := change_step request
  cases request with
  | evaluate number source =>
      simp only [perform]
      cases session.stations[number]? <;> exact .refl _
  | run number =>
      simp only [perform]
      cases session.evaluators[number]? <;> exact .refl _
  | _ => exact changed

theorem Coherent.step (coherent : Coherent session) (step : Step session other) :
    Coherent other := by
  cases step with
  | kept more => exact coherent.of_same rfl rfl
  | added known => exact coherent.fresh known
  | copied member => exact coherent.copy member
  | @stored station cache evaluators member filled more =>
      have faithful : cache.Faithful station.engine := by
        rcases filled with rfl | ⟨source, rfl⟩
        · exact Cache.faithful_nil
        · exact Cache.parse_faithful (coherent.faithful station member)
      exact (coherent.withCache member faithful).of_same rfl rfl

theorem Step.evaluators (step : Step session other) : session.evaluators <+: other.evaluators := by
  cases step with
  | kept more => exact more
  | added known => exact List.prefix_refl _
  | copied member => exact List.prefix_refl _
  | stored member filled more => exact more

theorem Coherent.performAll (coherent : Coherent session) (requests : List Request) :
    Coherent (session.performAll host requests).1 := by
  induction requests generalizing session with
  | nil => exact coherent
  | cons request rest ih => exact ih (coherent.step (perform_step request))

theorem performAll_evaluators (requests : List Request) :
    session.evaluators <+: (session.performAll host requests).1.evaluators := by
  induction requests generalizing session with
  | nil => exact List.prefix_refl _
  | cons request rest ih => exact (perform_step request).evaluators.trans ih

/-- Sessions that differ in the contents of their caches only. -/
structure Alike (session other : Session) : Prop where
  caches : session.caches.length = other.caches.length
  stations : session.stations = other.stations
  evaluators : session.evaluators = other.evaluators
  context : session.context = other.context

theorem Alike.refl (session : Session) : Alike session session :=
  ⟨rfl, rfl, rfl, rfl⟩

theorem Alike.withCache (alike : Alike session other) (station : Station) (cache : Cache) :
    Alike (session.withCache station cache) other :=
  ⟨by rw [Session.withCache, List.length_set, alike.caches], alike.stations, alike.evaluators,
    alike.context⟩

theorem Alike.answerParsed (alike : Alike session other) (parsed : Except EvalError Evaluator) :
    (session.answerParsed parsed).2 = (other.answerParsed parsed).2 ∧
      Alike (session.answerParsed parsed).1 (other.answerParsed parsed).1 := by
  cases parsed with
  | error error => exact ⟨rfl, alike⟩
  | ok evaluator =>
      refine ⟨?_, alike.caches, alike.stations, ?_, alike.context⟩
      · simp only [Session.answerParsed, addEvaluator, alike.evaluators]
      · simp only [Session.answerParsed, addEvaluator, alike.evaluators]

end Session

def Request.uncached : Request → Request
  | .parseCached engine source => .parse engine source
  | request => request

/-- The answers to a request are the same, but for the number of cached sources that the
description of an engine ends with. -/
def Request.SameAnswer (request : Request) (first second : Answer × List Event) : Prop :=
  first = second ∨
    (∃ number, request = .describeEngine number) ∧ ∃ (engine : Engine) (cached cached' : Nat),
      first = (.text (engine.describe cached), []) ∧ second = (.text (engine.describe cached'), [])

namespace Session

variable {session other : Session} {station : Station} {host : Host}

theorem perform_uncached (coherent : Coherent session) (alike : Alike session other)
    (request : Request) :
    request.SameAnswer (session.perform host request).2 (other.perform host request.uncached).2 ∧
      Alike (session.perform host request).1 (other.perform host request.uncached).1 := by
  obtain ⟨caches, stations, evaluators, context⟩ := other
  obtain ⟨length, rfl, rfl, rfl⟩ := alike
  have alike : Alike session ⟨caches, session.stations, session.evaluators, session.context⟩ :=
    ⟨length, rfl, rfl, rfl⟩
  cases request with
  | parseCached number source =>
      simp only [perform, Request.uncached, Session.change]
      cases found : session.stations[number]? with
      | none => exact ⟨.inl rfl, alike⟩
      | some station =>
          have faithful := coherent.faithful station (List.mem_of_getElem? found)
          dsimp only
          rw [Cache.parse_result faithful]
          obtain ⟨same, alike⟩ := (alike.withCache station _).answerParsed (station.engine.parse source)
          exact ⟨.inl (by rw [same]), alike⟩
  | parse number source =>
      simp only [perform, Request.uncached, Session.change]
      cases session.stations[number]? with
      | none => exact ⟨.inl rfl, alike⟩
      | some station =>
          obtain ⟨same, alike⟩ := alike.answerParsed (station.engine.parse source)
          exact ⟨.inl (by simp only [same]), alike⟩
  | addEngine config grammar =>
      refine ⟨.inl rfl, ?_, ?_, rfl, rfl⟩
      · simp [perform, Request.uncached, Session.change, length]
      · simp [perform, Request.uncached, Session.change, length]
  | copyEngine number =>
      simp only [perform, Request.uncached, Session.change]
      cases session.stations[number]? with
      | none => exact ⟨.inl rfl, alike⟩
      | some station => exact ⟨.inl rfl, length, rfl, rfl, rfl⟩
  | replaceGrammar number grammar =>
      simp only [perform, Request.uncached, Session.change]
      cases session.stations[number]? with
      | none => exact ⟨.inl rfl, alike⟩
      | some station =>
          refine ⟨.inl rfl, ?_, ?_, rfl, rfl⟩
          · simp [length]
          · simp [length]
  | clearCache number =>
      simp only [perform, Request.uncached, Session.change]
      cases session.stations[number]? with
      | none => exact ⟨.inl rfl, alike⟩
      | some station =>
          refine ⟨.inl rfl, ?_, rfl, rfl, rfl⟩
          simp [Session.withCache, length]
  | describeEngine number =>
      simp only [perform, Request.uncached, Session.change]
      cases session.stations[number]? with
      | none => exact ⟨.inl rfl, alike⟩
      | some station => exact ⟨.inr ⟨⟨number, rfl⟩, _, _, _, rfl, rfl⟩, alike⟩
  | evaluate number source =>
      simp only [perform, Request.uncached]
      cases session.stations[number]? <;> exact ⟨.inl rfl, alike⟩
  | run number =>
      simp only [perform, Request.uncached]
      cases session.evaluators[number]? <;> exact ⟨.inl rfl, alike⟩
  | describeEvaluator number =>
      simp only [perform, Request.uncached, Session.change]
      cases session.evaluators[number]? <;> exact ⟨.inl rfl, alike⟩
  | loadJson text =>
      simp only [perform, Request.uncached, Session.change]
      cases Json.read? text with
      | none => exact ⟨.inl rfl, alike⟩
      | some json =>
          dsimp only
          cases Context.ofJson json with
          | error error => exact ⟨.inl rfl, alike⟩
          | ok context => exact ⟨.inl rfl, length, rfl, rfl, rfl⟩
  | define | reset => exact ⟨.inl rfl, length, rfl, rfl, rfl⟩
  | get | showContext => exact ⟨.inl rfl, alike⟩

theorem performAll_uncached (coherent : Coherent session) (alike : Alike session other)
    (requests : List Request) :
    (session.performAll host requests).2.length = requests.length ∧
    (other.performAll host (requests.map Request.uncached)).2.length = requests.length ∧
    ∀ (index : Nat) (request : Request) (first second : Answer × List Event),
      requests[index]? = some request →
      (session.performAll host requests).2[index]? = some first →
      (other.performAll host (requests.map Request.uncached)).2[index]? = some second →
        request.SameAnswer first second := by
  induction requests generalizing session other with
  | nil =>
      refine ⟨rfl, rfl, ?_⟩
      intro index request first second atIndex
      contradiction
  | cons request rest ih =>
      have ⟨same, alikeAfter⟩ : request.SameAnswer (session.perform host request).2
          (other.perform host request.uncached).2 ∧ Alike (session.perform host request).1
          (other.perform host request.uncached).1 := perform_uncached coherent alike request
      obtain ⟨length, lengthUncached, later⟩ := ih (coherent.step (perform_step request)) alikeAfter
      refine ⟨congrArg Nat.succ length, congrArg Nat.succ lengthUncached, ?_⟩
      intro index found first second atIndex atFirst atSecond
      cases index with
      | zero =>
          cases atIndex
          cases atFirst
          cases atSecond
          exact same
      | succ index => exact later index found first second atIndex atFirst atSecond

theorem perform_run {number : Nat} {evaluator : Evaluator}
    (found : session.evaluators[number]? = some evaluator) :
    session.perform host (.run number) =
      (session, .result (evaluator.evaluate host session.context).result,
        (evaluator.evaluate host session.context).events) := by
  simp only [perform, found]

/-- After any requests the cache is a place where nothing can be told from compiling again: it
has what the engine would make of a source now, evaluators keep what they compute whatever is
asked later, and without the cache every answer is the same but for the sizes of caches. -/
theorem caching_unobservable (host : Host) (requests : List Request) :
    let session := (empty.performAll host requests).1
    (∀ station ∈ session.stations, ∀ source,
      ((session.cacheOf station).parse station.engine source).1 = station.engine.parse source) ∧
    (∀ number source,
      (session.perform host (.parseCached number source)).2 =
          (session.perform host (.parse number source)).2 ∧
        (session.perform host (.parseCached number source)).1.evaluators =
          (session.perform host (.parse number source)).1.evaluators) ∧
    (∀ later number evaluator, session.evaluators[number]? = some evaluator →
      let final := (session.performAll host later).1
      final.perform host (.run number) =
        (final, .result (evaluator.evaluate host final.context).result,
          (evaluator.evaluate host final.context).events)) ∧
    (empty.performAll host requests).2.length = requests.length ∧
    (empty.performAll host (requests.map Request.uncached)).2.length = requests.length ∧
    ∀ (index : Nat) (request : Request) (first second : Answer × List Event),
      requests[index]? = some request →
      (empty.performAll host requests).2[index]? = some first →
      (empty.performAll host (requests.map Request.uncached)).2[index]? = some second →
        request.SameAnswer first second := by
  intro session
  have coherent : Coherent session := coherent_empty.performAll requests
  refine ⟨?_, ?_, ?_, performAll_uncached coherent_empty (.refl _) requests⟩
  · intro station member source
    exact Cache.parse_result (coherent.faithful station member)
  · intro number source
    have ⟨same, alike⟩ : Request.SameAnswer (.parseCached number source)
        (session.perform host (.parseCached number source)).2
        (session.perform host (.parse number source)).2 ∧
        Alike (session.perform host (.parseCached number source)).1
          (session.perform host (.parse number source)).1 :=
      perform_uncached coherent (.refl _) (.parseCached number source)
    refine ⟨?_, alike.evaluators⟩
    rcases same with same | ⟨⟨_, other⟩, _⟩
    · exact same
    · contradiction
  · intro later number evaluator found final
    have kept : session.evaluators <+: final.evaluators := performAll_evaluators later
    obtain ⟨more, same⟩ := kept
    have inRange := (List.getElem?_eq_some_iff.mp found).1
    exact perform_run (by rw [← same, List.getElem?_append_left inRange, found])

/-- An evaluator from the cache outlives the cache and the grammar that it was compiled with. -/
theorem caching_unobservable_replaced :
    let session := (empty.performAll .standard
      [.addEngine .default .builtin, .parseCached 0 "7", .parseCached 0 "7"]).1
    let final := (session.performAll .standard [.clearCache 0, .replaceGrammar 0 .refusing]).1
    (final.perform .standard (.run 1)).2 = (.result (.ok (.big 7)), []) := by
  have found : (empty.performAll .standard
      [.addEngine .default .builtin, .parseCached 0 "7", .parseCached 0 "7"]).1.evaluators[1]? =
        some ⟨"7", .default, .literal (.big 7)⟩ := by cbv
  have ran := (caching_unobservable .standard _).2.2.1
    [.clearCache 0, .replaceGrammar 0 .refusing] 1 _ found
  intro session final
  exact congrArg Prod.snd ran

end Session

end EtherCalc
