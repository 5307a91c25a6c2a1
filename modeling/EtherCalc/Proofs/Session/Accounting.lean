import EtherCalc.Proofs.Session.Caching

/-!
What the caches of a session hold.

Engines that share a cache make a group.  The history of a session alone, its requests and the
answers to them, says which engines are in a group and which sources it has compiled since it was
last cleared; those are the sources in its cache, each of them once.
-/

namespace EtherCalc

/-- The groups of the engines after one more request.  A group is called by the number of the
request that began it; an engine that is made anew or gets another grammar begins one, and a copy
joins that of its original. -/
def Request.regroup (moment : Nat) (groups : List Nat) : Request → List Nat
  | .addEngine _ _ => groups ++ [moment]
  | .copyEngine engine => groups ++ groups[engine]?.toList
  | .replaceGrammar engine _ => groups.set engine moment
  | _ => groups

/-- The group of each engine after some requests. -/
def groups (requests : List Request) : List Nat :=
  requests.zipIdx.foldl (fun groups entry => entry.1.regroup entry.2 groups) []

variable {requests : List Request} {request : Request} {answers : List (Answer × List Event)}
variable {answer : Answer × List Event} {group : Nat} {source : String}

theorem groups_append : groups (requests ++ [request]) =
    request.regroup requests.length (groups requests) := by
  simp [groups, List.zipIdx_append]

theorem mem_regroup {moment : Nat} {known : List Nat}
    (member : group ∈ request.regroup moment known) :
    group ∈ known ∨ group = moment := by
  cases request with
  | addEngine => simpa [Request.regroup] using member
  | copyEngine engine =>
      refine .inl ((List.mem_append.mp member).elim id fun found => ?_)
      exact List.mem_of_getElem? (Option.mem_toList.mp found)
  | replaceGrammar => exact List.mem_or_eq_of_mem_set member
  | _ => exact .inl member

/-- A group is not older than the request that began it. -/
theorem lt_of_mem_groups (member : group ∈ groups requests) : group < requests.length := by
  induction requests using List.reverseRecOn with
  | nil => contradiction
  | append_singleton requests request ih =>
      rw [groups_append] at member
      rw [List.length_append, List.length_singleton]
      rcases mem_regroup member with old | rfl
      · exact Nat.lt_succ_of_lt (ih old)
      · exact Nat.lt_succ_self _

/-- After some requests the next one compiles the source through the cache of the group. -/
def Stores (requests : List Request) (request : Request) (answer : Answer × List Event)
    (group : Nat) (source : String) : Prop :=
  ∃ engine number, request = .parseCached engine source ∧ answer.1 = .evaluator number ∧
    (groups requests)[engine]? = some group

/-- After some requests the next one clears the cache of the group. -/
def Clears (requests : List Request) (request : Request) (group : Nat) : Prop :=
  ∃ engine, request = .clearCache engine ∧ (groups requests)[engine]? = some group

/-- The source was compiled through the cache of the group, which was not cleared since. -/
def Kept (requests : List Request) (answers : List (Answer × List Event)) (group : Nat)
    (source : String) : Prop :=
  ∃ moment request answer, requests[moment]? = some request ∧ answers[moment]? = some answer ∧
    Stores (requests.take moment) request answer group source ∧
    ∀ later other, moment < later → requests[later]? = some other →
      ¬ Clears (requests.take later) other group

theorem Kept.lt (kept : Kept requests answers group source) : group < requests.length := by
  obtain ⟨moment, request, answer, _, _, ⟨engine, number, _, _, found⟩, _⟩ := kept
  have early := lt_of_mem_groups (List.mem_of_getElem? found)
  rw [List.length_take] at early
  exact Nat.lt_of_lt_of_le early (Nat.min_le_right _ _)

theorem getElem?_append_singleton {α : Type} {list : List α} {last value : α} {index : Nat} :
    (list ++ [last])[index]? = some value ↔
      list[index]? = some value ∨ index = list.length ∧ last = value := by
  grind

theorem kept_append (answered : answers.length = requests.length) :
    Kept (requests ++ [request]) (answers ++ [answer]) group source ↔
      Stores requests request answer group source ∨
        Kept requests answers group source ∧ ¬ Clears requests request group := by
  have before {moment : Nat} {found : Request} (known : requests[moment]? = some found) :
      (requests ++ [request]).take moment = requests.take moment :=
    List.take_append_of_le_length (Nat.le_of_lt (List.getElem?_eq_some_iff.mp known).1)
  constructor
  -- the request that stored the source is one of the old ones or the last one
  · rintro ⟨moment, found, reply, isRequest, isAnswer, stores, uncleared⟩
    rcases getElem?_append_singleton.mp isRequest with known | ⟨rfl, rfl⟩
    · rcases getElem?_append_singleton.mp isAnswer with replied | ⟨rfl, _⟩
      · refine .inr ⟨⟨moment, found, reply, known, replied, ?_, ?_⟩, ?_⟩
        · rwa [before known] at stores
        · intro later other after isOther
          have cleared := uncleared later other after
            (getElem?_append_singleton.mpr (.inl isOther))
          rwa [before isOther] at cleared
        · have last := uncleared requests.length request (List.getElem?_eq_some_iff.mp known).1
            (getElem?_append_singleton.mpr (.inr ⟨rfl, rfl⟩))
          rwa [List.take_left] at last
      · rw [answered, List.getElem?_eq_none (Nat.le_refl _)] at known
        contradiction
    · rw [List.take_left] at stores
      rcases getElem?_append_singleton.mp isAnswer with replied | ⟨_, rfl⟩
      · rw [← answered, List.getElem?_eq_none (Nat.le_refl _)] at replied
        contradiction
      · exact .inl stores
  · rintro (stores | ⟨⟨moment, found, reply, known, replied, stores, uncleared⟩, notNow⟩)
    · refine ⟨requests.length, request, answer, by simp, ?_, ?_, ?_⟩
      · rw [← answered]
        simp
      · rwa [List.take_left]
      · intro later other after isOther
        have inside := (List.getElem?_eq_some_iff.mp isOther).1
        rw [List.length_append, List.length_singleton] at inside
        omega
    · refine ⟨moment, found, reply, getElem?_append_singleton.mpr (.inl known),
        getElem?_append_singleton.mpr (.inl replied), ?_, ?_⟩
      · rwa [before known]
      · intro later other after isOther
        rcases getElem?_append_singleton.mp isOther with isOther | ⟨rfl, rfl⟩
        · rw [before isOther]
          exact uncleared later other after isOther
        · rwa [List.take_left]

namespace Cache

variable {engine : Engine} {cache after : Cache} {evaluator : Evaluator} {error : EvalError}

theorem parse_failed (parsed : parse engine cache source = (.error error, after)) :
    after = cache := by
  unfold parse at parsed
  split at parsed
  · cases parsed
  · split at parsed <;> cases parsed
    rfl

/-- A source that compiles is in the cache from then on, and nothing else changes. -/
theorem mem_names_parse (parsed : parse engine cache source = (.ok evaluator, after))
    {key : String} : key ∈ Entries.names after ↔ key = source ∨ key ∈ Entries.names cache := by
  unfold parse at parsed
  split at parsed
  · rename_i found
    cases parsed
    have known := Entries.mem_names_of_find? found
    exact ⟨.inr, fun either => either.elim (fun same => same ▸ known) id⟩
  · split at parsed <;> cases parsed
    exact Entries.mem_names_put

theorem nodup_names_parse (parsed : parse engine cache source = (.ok evaluator, after))
    (distinct : (Entries.names cache).Nodup) : (Entries.names after).Nodup := by
  unfold parse at parsed
  split at parsed
  · cases parsed
    exact distinct
  · split at parsed <;> cases parsed
    exact Entries.nodup_names_put distinct

end Cache

namespace Session

variable {session next : Session} {host : Host} {station : Station}

theorem performAll_append : session.performAll host (requests ++ [request]) =
    let before := session.performAll host requests
    let last := before.1.perform host request
    (last.1, before.2 ++ [last.2]) := by
  induction requests generalizing session with
  | nil => rfl
  | cons first rest ih => simp only [List.cons_append, performAll, ih]

theorem withCache_cacheOf : session.withCache station (session.cacheOf station) = session := by
  obtain ⟨caches, stations, evaluators, context⟩ := session
  simp only [withCache, cacheOf, mk.injEq, and_true]
  cases found : caches[station.cache]? with
  | none => exact List.set_eq_of_length_le (List.getElem?_eq_none_iff.mp found)
  | some cache =>
      obtain ⟨inside, rfl⟩ := List.getElem?_eq_some_iff.mp found
      exact List.set_getElem_self inside

/-- The request with its answer is none that founds, joins or leaves a group, compiles a source
through a cache or clears one. -/
def Idle (session : Session) (answer : Answer × List Event) : Request → Prop
  | .addEngine _ _ => False
  | .copyEngine engine | .replaceGrammar engine _ | .clearCache engine =>
      session.stations[engine]? = none
  | .parseCached _ _ => ∀ number, answer.1 ≠ .evaluator number
  | _ => True

/-- What a request with its answer does to the engines and the caches. -/
inductive Effect (session next : Session) : Request → Answer × List Event → Prop where
  | founded {config : Config} {grammar : Grammar} {answer : Answer × List Event}
      (caches : next.caches = session.caches ++ [[]])
      (stations : next.stations =
        session.stations ++ [⟨⟨config, grammar⟩, session.caches.length⟩]) :
      Effect session next (.addEngine config grammar) answer
  | copied {engine : Nat} {station : Station} {answer : Answer × List Event}
      (found : session.stations[engine]? = some station) (caches : next.caches = session.caches)
      (stations : next.stations = session.stations ++ [station]) :
      Effect session next (.copyEngine engine) answer
  | detached {engine : Nat} {grammar : Grammar} {station : Station} {answer : Answer × List Event}
      (isFresh : station.cache = session.caches.length)
      (caches : next.caches = session.caches ++ [[]])
      (stations : next.stations = session.stations.set engine station) :
      Effect session next (.replaceGrammar engine grammar) answer
  | stored {engine number : Nat} {source : String} {station : Station} {evaluator : Evaluator}
      {cache : Cache} {events : List Event} (found : session.stations[engine]? = some station)
      (parsed : (session.cacheOf station).parse station.engine source = (.ok evaluator, cache))
      (caches : next.caches = session.caches.set station.cache cache)
      (stations : next.stations = session.stations) :
      Effect session next (.parseCached engine source) (.evaluator number, events)
  | cleared {engine : Nat} {station : Station} {answer : Answer × List Event}
      (found : session.stations[engine]? = some station)
      (caches : next.caches = session.caches.set station.cache [])
      (stations : next.stations = session.stations) :
      Effect session next (.clearCache engine) answer
  | kept {request : Request} {answer : Answer × List Event} (idle : session.Idle answer request)
      (caches : next.caches = session.caches) (stations : next.stations = session.stations) :
      Effect session next request answer

theorem Effect.of_same {request : Request} {answer : Answer × List Event}
    (idle : session.Idle answer request) : Effect session session request answer :=
  .kept idle rfl rfl

theorem perform_effect (request : Request) :
    Effect session (session.perform host request).1 request (session.perform host request).2 := by
  cases request with
  | addEngine config grammar => exact .founded rfl rfl
  | copyEngine engine =>
      simp only [perform, change]
      cases found : session.stations[engine]? with
      | none => exact .of_same found
      | some station => exact .copied found rfl rfl
  | replaceGrammar engine grammar =>
      simp only [perform, change]
      cases found : session.stations[engine]? with
      | none => exact .of_same found
      | some station => exact .detached rfl rfl rfl
  | parse engine source =>
      simp only [perform, change]
      cases session.stations[engine]? with
      | none => exact .of_same trivial
      | some station =>
          dsimp only
          cases station.engine.parse source <;> exact .kept trivial rfl rfl
  | parseCached engine source =>
      simp only [perform, change]
      cases found : session.stations[engine]? with
      | none => exact .of_same fun number answered => by cases answered
      | some station =>
          dsimp only
          rcases parsed : (session.cacheOf station).parse station.engine source with
            ⟨error | evaluator, cache⟩
          · have same := Cache.parse_failed parsed
            subst same
            rw [withCache_cacheOf]
            exact .of_same fun number answered => by cases answered
          · exact .stored found parsed rfl rfl
  | clearCache engine =>
      simp only [perform, change]
      cases found : session.stations[engine]? with
      | none => exact .of_same found
      | some station => exact .cleared found rfl rfl
  | describeEngine engine =>
      simp only [perform, change]
      cases session.stations[engine]? <;> exact .of_same trivial
  | evaluate engine source =>
      simp only [perform]
      cases session.stations[engine]? <;> exact .of_same trivial
  | run evaluator =>
      simp only [perform]
      cases session.evaluators[evaluator]? <;> exact .of_same trivial
  | describeEvaluator evaluator =>
      simp only [perform, change]
      cases session.evaluators[evaluator]? <;> exact .of_same trivial
  | loadJson text =>
      simp only [perform, change]
      cases Json.read? text with
      | none => exact .of_same trivial
      | some json =>
          dsimp only
          cases Context.ofJson json <;> exact .kept trivial rfl rfl
  | define | reset | get | showContext => exact .kept trivial rfl rfl

/-- The engine is one of the session, and the group is its group after the requests. -/
def InGroup (session : Session) (requests : List Request) (station : Station) (group : Nat) :
    Prop :=
  ∃ engine : Nat,
    session.stations[engine]? = some station ∧ (groups requests)[engine]? = some group

theorem InGroup.lt (member : session.InGroup requests station group) : group < requests.length := by
  obtain ⟨engine, _, isGroup⟩ := member
  exact lt_of_mem_groups (List.mem_of_getElem? isGroup)

/-- The session's caches agree with its history. -/
structure Accounted (requests : List Request) (answers : List (Answer × List Event))
    (session : Session) : Prop where
  answered : answers.length = requests.length
  engines : session.stations.length = (groups requests).length
  inRange : ∀ {station group}, session.InGroup requests station group →
    station.cache < session.caches.length
  shared : ∀ {station other group group'}, session.InGroup requests station group →
    session.InGroup requests other group' → (station.cache = other.cache ↔ group = group')
  distinct : ∀ {station group}, session.InGroup requests station group →
    (Entries.names (session.cacheOf station)).Nodup
  exact : ∀ {station group}, session.InGroup requests station group → ∀ source,
    source ∈ Entries.names (session.cacheOf station) ↔ Kept requests answers group source

theorem Accounted.exists_group (accounted : Accounted requests answers session) {engine : Nat}
    (found : session.stations[engine]? = some station) :
    ∃ group, (groups requests)[engine]? = some group := by
  have inside := (List.getElem?_eq_some_iff.mp found).1
  rw [accounted.engines] at inside
  exact ⟨_, List.getElem?_eq_getElem inside⟩

theorem accounted_empty : Accounted [] [] empty where
  answered := rfl
  engines := rfl
  inRange := by simp [InGroup, empty]
  shared := by simp [InGroup, empty]
  distinct := by simp [InGroup, empty]
  exact := by simp [InGroup, empty]

/-- A request that neither stores nor clears, and lets the caches be, leaves them accounted for. -/
theorem Accounted.kept (accounted : Accounted requests answers session)
    (engines : next.stations.length = (groups (requests ++ [request])).length)
    (caches : next.caches = session.caches)
    (known : ∀ {station group}, next.InGroup (requests ++ [request]) station group →
      session.InGroup requests station group)
    (unstored : ∀ group source, ¬ Stores requests request answer group source)
    (uncleared : ∀ group, ¬ Clears requests request group) :
    Accounted (requests ++ [request]) (answers ++ [answer]) next where
  answered := by simp [accounted.answered]
  engines := engines
  inRange member := by
    rw [caches]
    exact accounted.inRange (known member)
  shared member other := accounted.shared (known member) (known other)
  distinct member := by
    rw [cacheOf, caches]
    exact accounted.distinct (known member)
  exact member source := by
    rw [kept_append accounted.answered, cacheOf, caches]
    simp only [unstored, uncleared, false_or, not_false_eq_true, and_true]
    exact accounted.exact (known member) source

/-- A request that gives a new cache to an engine and begins a group with it. -/
theorem Accounted.fresh (accounted : Accounted requests answers session)
    (engines : next.stations.length = (groups (requests ++ [request])).length)
    (caches : next.caches = session.caches ++ [[]])
    (known : ∀ {station group}, next.InGroup (requests ++ [request]) station group →
      session.InGroup requests station group ∨
        station.cache = session.caches.length ∧ group = requests.length)
    (unstored : ∀ group source, ¬ Stores requests request answer group source)
    (uncleared : ∀ group, ¬ Clears requests request group) :
    Accounted (requests ++ [request]) (answers ++ [answer]) next where
  answered := by simp [accounted.answered]
  engines := engines
  inRange member := by
    rw [caches, List.length_append, List.length_singleton]
    rcases known member with old | ⟨isFresh, _⟩
    · exact Nat.lt_succ_of_lt (accounted.inRange old)
    · exact Nat.lt_succ_of_le (Nat.le_of_eq isFresh)
  shared member other := by
    rcases known member with old | ⟨isFresh, rfl⟩ <;>
      rcases known other with oldToo | ⟨isFreshToo, rfl⟩
    · exact accounted.shared old oldToo
    · have inside := accounted.inRange old
      have early := old.lt
      omega
    · have inside := accounted.inRange oldToo
      have early := oldToo.lt
      omega
    · simp [isFresh, isFreshToo]
  distinct member := by
    rw [cacheOf, caches]
    rcases known member with old | ⟨isFresh, rfl⟩
    · rw [List.getElem?_append_left (accounted.inRange old)]
      exact accounted.distinct old
    · rw [isFresh, List.getElem?_concat_length]
      exact List.nodup_nil
  exact member source := by
    rw [kept_append accounted.answered, cacheOf, caches]
    simp only [unstored, uncleared, false_or, not_false_eq_true, and_true]
    rcases known member with old | ⟨isFresh, rfl⟩
    · rw [List.getElem?_append_left (accounted.inRange old)]
      exact accounted.exact old source
    · rw [isFresh, List.getElem?_concat_length]
      simp only [Option.getD_some, Entries.names, List.map_nil, List.not_mem_nil, false_iff]
      exact fun kept => Nat.lt_irrefl _ kept.lt

/-- A request that fills or clears the cache of an engine. -/
theorem Accounted.refilled (accounted : Accounted requests answers session) {engine : Nat}
    {cache : Cache} (found : session.stations[engine]? = some station)
    (sameGroups : groups (requests ++ [request]) = groups requests)
    (caches : next.caches = session.caches.set station.cache cache)
    (stations : next.stations = session.stations) (distinct : (Entries.names cache).Nodup)
    (filled : ∀ {group}, (groups requests)[engine]? = some group → ∀ source,
      source ∈ Entries.names cache ↔
        Kept (requests ++ [request]) (answers ++ [answer]) group source)
    (elsewhere : ∀ {group}, (groups requests)[engine]? ≠ some group → ∀ source,
      Kept (requests ++ [request]) (answers ++ [answer]) group source ↔
        Kept requests answers group source) :
    Accounted (requests ++ [request]) (answers ++ [answer]) next := by
  obtain ⟨group, isGroup⟩ := accounted.exists_group found
  have known {other : Station} {group' : Nat} :
      next.InGroup (requests ++ [request]) other group' ↔
        session.InGroup requests other group' := by
    rw [InGroup, InGroup, sameGroups, stations]
  have inside := accounted.inRange ⟨engine, found, isGroup⟩
  have cacheOf (other : Station) : next.cacheOf other =
      if other.cache = station.cache then cache else session.cacheOf other := by
    by_cases same : other.cache = station.cache
    · rw [Session.cacheOf, caches, same, List.getElem?_set_self inside, if_pos rfl]
      rfl
    · rw [Session.cacheOf, caches, List.getElem?_set_ne (Ne.symm same), if_neg same]
      rfl
  refine ⟨by simp [accounted.answered], ?_, ?_, ?_, ?_, ?_⟩
  · rw [stations, sameGroups, accounted.engines]
  · intro other group' member
    rw [caches, List.length_set]
    exact accounted.inRange (known.mp member)
  · intro other other' group' group'' member member'
    exact accounted.shared (known.mp member) (known.mp member')
  · intro other group' member
    rw [cacheOf]
    split
    · exact distinct
    · exact accounted.distinct (known.mp member)
  · intro other group' member source
    have shared := accounted.shared (known.mp member) ⟨engine, found, isGroup⟩
    rw [cacheOf]
    by_cases same : other.cache = station.cache
    · rw [if_pos same, filled isGroup, shared.mp same]
    · rw [if_neg same, elsewhere]
      · exact accounted.exact (known.mp member) source
      · rw [isGroup]
        exact fun isSame => same (shared.mpr (Option.some.inj isSame).symm)

/-- Lists of one length get one more element each. -/
theorem inGroup_append {newcomer : Station} {fresh : Nat}
    (accounted : Accounted requests answers session)
    (stations : next.stations = session.stations ++ [newcomer])
    (sameGroups : groups (requests ++ [request]) = groups requests ++ [fresh])
    (member : next.InGroup (requests ++ [request]) station group) :
    session.InGroup requests station group ∨ station = newcomer ∧ group = fresh := by
  obtain ⟨engine, found, isGroup⟩ := member
  rw [stations] at found
  rw [sameGroups] at isGroup
  have engines := accounted.engines
  rcases getElem?_append_singleton.mp found with found | ⟨rfl, rfl⟩ <;>
    rcases getElem?_append_singleton.mp isGroup with isGroup | ⟨last, rfl⟩
  · exact .inl ⟨engine, found, isGroup⟩
  · have inside := (List.getElem?_eq_some_iff.mp found).1
    omega
  · have inside := (List.getElem?_eq_some_iff.mp isGroup).1
    omega
  · exact .inr ⟨rfl, rfl⟩

theorem Accounted.step (accounted : Accounted requests answers session)
    (effect : Effect session next request answer) :
    Accounted (requests ++ [request]) (answers ++ [answer]) next := by
  have engines := accounted.engines
  cases effect with
  | @founded config grammar _ caches stations =>
      have more : groups (requests ++ [.addEngine config grammar]) = _ := groups_append
      refine accounted.fresh ?_ caches (fun member => ?_) (by simp [Stores]) (by simp [Clears])
      · rw [stations, more]
        simp [Request.regroup, engines]
      · refine (inGroup_append accounted stations more member).imp_right ?_
        rintro ⟨rfl, rfl⟩
        exact ⟨rfl, rfl⟩
  | @copied engine station _ found caches stations =>
      obtain ⟨group, isGroup⟩ := accounted.exists_group found
      have more : groups (requests ++ [.copyEngine engine]) = groups requests ++ [group] := by
        rw [groups_append, Request.regroup, isGroup]
        rfl
      refine accounted.kept ?_ caches (fun member => ?_) (by simp [Stores]) (by simp [Clears])
      · rw [stations, more]
        simp [engines]
      · rcases inGroup_append accounted stations more member with old | ⟨rfl, rfl⟩
        · exact old
        · exact ⟨engine, found, isGroup⟩
  | @detached engine grammar fresh _ isFresh caches stations =>
      have more : groups (requests ++ [.replaceGrammar engine grammar]) = _ := groups_append
      refine accounted.fresh ?_ caches ?_ (by simp [Stores]) (by simp [Clears])
      · rw [stations, more]
        simp [Request.regroup, engines]
      · rintro station group ⟨other, found, isGroup⟩
        rw [stations, List.getElem?_set] at found
        rw [more, Request.regroup, List.getElem?_set] at isGroup
        split at found
        · rename_i same
          rw [if_pos same] at isGroup
          split at found <;> cases found
          split at isGroup <;> cases isGroup
          exact .inr ⟨isFresh, rfl⟩
        · rename_i apart
          rw [if_neg apart] at isGroup
          exact .inl ⟨other, found, isGroup⟩
  | @stored engine number source station evaluator cache events found parsed caches stations =>
      have same : groups (requests ++ [.parseCached engine source]) = groups requests :=
        groups_append
      obtain ⟨group, isGroup⟩ := accounted.exists_group found
      have member : session.InGroup requests station group := ⟨engine, found, isGroup⟩
      have uncleared (group : Nat) : ¬ Clears requests (.parseCached engine source) group := by
        simp [Clears]
      refine accounted.refilled found same caches stations
        (Cache.nodup_names_parse parsed (accounted.distinct member)) ?_ ?_
      · intro group' isGroup' key
        cases isGroup.symm.trans isGroup'
        rw [Cache.mem_names_parse parsed, accounted.exact member, kept_append accounted.answered]
        simp [Stores, isGroup, uncleared, eq_comm]
      · intro group' other key
        rw [kept_append accounted.answered]
        simp [Stores, other, uncleared]
  | @cleared engine station _ found caches stations =>
      have same : groups (requests ++ [.clearCache engine]) = groups requests := groups_append
      refine accounted.refilled found same caches stations List.nodup_nil ?_ ?_
      · intro group isGroup key
        rw [kept_append accounted.answered]
        simp [Stores, Clears, isGroup, Entries.names]
      · intro group other key
        rw [kept_append accounted.answered]
        simp [Stores, Clears, other]
  | kept idle caches stations =>
      have missing {engine : Nat} (absent : session.stations[engine]? = none) :
          (groups requests)[engine]? = none := by
        rw [List.getElem?_eq_none_iff] at absent ⊢
        omega
      have same : groups (requests ++ [request]) = groups requests := by
        rw [groups_append]
        cases request with
        | addEngine => exact idle.elim
        | copyEngine engine => simp [Request.regroup, missing idle]
        | replaceGrammar engine =>
            exact List.set_eq_of_length_le (List.getElem?_eq_none_iff.mp (missing idle))
        | _ => rfl
      refine accounted.kept ?_ caches (fun member => ?_) ?_ ?_
      · rw [stations, same, engines]
      · rwa [InGroup, same, stations] at member
      · rintro group source ⟨engine, number, rfl, isAnswer, _⟩
        exact idle number isAnswer
      · rintro group ⟨engine, rfl, isGroup⟩
        rw [missing idle] at isGroup
        contradiction

theorem performAll_accounted (requests : List Request) :
    Accounted requests (empty.performAll host requests).2 (empty.performAll host requests).1 := by
  induction requests using List.reverseRecOn with
  | nil => exact accounted_empty
  | append_singleton requests request ih =>
      rw [performAll_append]
      exact ih.step (perform_effect request)

/-- A request that neither compiles a source through a cache nor clears one leaves all caches as
they are. -/
theorem Effect.cacheOf (effect : Effect session next request answer)
    (unstored : ∀ engine source number,
      request = .parseCached engine source → answer.1 ≠ .evaluator number)
    (uncleared : ∀ engine, request ≠ .clearCache engine)
    (inside : station.cache < session.caches.length) :
    next.cacheOf station = session.cacheOf station := by
  cases effect with
  | founded caches | detached _ caches =>
      rw [Session.cacheOf, Session.cacheOf, caches, List.getElem?_append_left inside]
  | copied _ caches | kept _ caches => rw [Session.cacheOf, Session.cacheOf, caches]
  | stored => exact absurd rfl (unstored _ _ _ rfl)
  | cleared => exact absurd rfl (uncleared _)

/-- After any requests the cache of an engine holds each source once that was compiled through the
cache of its group since that was last cleared, and no other; a request that compiles no source
through a cache and clears none leaves every cache as it is. -/
theorem caches_accounted (host : Host) (requests : List Request) :
    let session := (empty.performAll host requests).1
    let answers := (empty.performAll host requests).2
    session.cacheSizes.length = (groups requests).length ∧
    (∀ engine group : Nat, (groups requests)[engine]? = some group →
      ∃ sources : Finset String, session.cacheSizes[engine]? = some sources.card ∧
        ∀ source, source ∈ sources ↔ Kept requests answers group source) ∧
    ∀ request, (∀ engine, request ≠ .clearCache engine) →
      (∀ engine source number, request = .parseCached engine source →
        (session.perform host request).2.1 ≠ .evaluator number) →
      ∀ station ∈ session.stations,
        (session.perform host request).1.cacheOf station = session.cacheOf station := by
  intro session answers
  have accounted : Accounted requests answers session := performAll_accounted requests
  have coherent : Coherent session := coherent_empty.performAll requests
  refine ⟨?_, ?_, ?_⟩
  · rw [cacheSizes, List.length_map, accounted.engines]
  · intro engine group isGroup
    have inside := (List.getElem?_eq_some_iff.mp isGroup).1
    rw [← accounted.engines] at inside
    have found := List.getElem?_eq_getElem inside
    have member : session.InGroup requests session.stations[engine] group :=
      ⟨engine, found, isGroup⟩
    refine ⟨(Entries.names (session.cacheOf session.stations[engine])).toFinset, ?_, ?_⟩
    · rw [List.toFinset_card_of_nodup (accounted.distinct member), cacheSizes, List.getElem?_map,
        found, Entries.names, List.length_map]
      rfl
    · intro source
      rw [List.mem_toFinset]
      exact accounted.exact member source
  · intro request uncleared unstored station member
    exact (perform_effect request).cacheOf unstored uncleared (coherent.inRange station member)

/-- A copy fills the cache of its original; with another grammar it begins a group of its own. -/
theorem caches_accounted_copy :
    let requests : List Request := [.addEngine .default .builtin, .copyEngine 0, .copyEngine 1,
      .parseCached 1 "7", .replaceGrammar 2 .refusing]
    let session := (empty.performAll .standard requests).1
    groups requests = [0, 0, 4] ∧
      (∃ sources : Finset String, session.cacheSizes[0]? = some sources.card ∧
        ∀ source, source ∈ sources ↔
          Kept requests (empty.performAll .standard requests).2 0 source) ∧
      ∀ station ∈ session.stations,
        (session.perform .standard (.parse 0 "8")).1.cacheOf station = session.cacheOf station :=
  ⟨by decide, (caches_accounted .standard _).2.1 0 0 (by decide),
    (caches_accounted .standard _).2.2 (.parse 0 "8") nofun nofun⟩

end Session

end EtherCalc
