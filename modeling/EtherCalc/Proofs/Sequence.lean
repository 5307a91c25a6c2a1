import EtherCalc.Run

namespace EtherCalc

section

variable {ε α β γ : Type} {first : Except ε α} {next : α → Except ε β} {result : β} {error : ε}

theorem bind_eq_ok : first.bind next = .ok result ↔
    ∃ value, first = .ok value ∧ next value = .ok result := by
  cases first <;> simp [Except.bind]

theorem map_eq_ok {build : α → β} : first.map build = .ok result ↔
    ∃ value, first = .ok value ∧ build value = result := by
  cases first <;> simp [Except.map]

theorem map_eq_bind {build : α → β} :
    first.map build = first.bind fun value => .ok (build value) := by
  cases first <;> rfl

theorem map_bind {build : β → γ} :
    (first.bind next).map build = first.bind fun value => (next value).map build := by
  cases first <;> rfl

theorem map_map {build : α → β} {again : β → γ} :
    (first.map build).map again = first.map fun value => again (build value) := by
  cases first <;> rfl

theorem mapError_eq_ok {ε' : Type} {reword : ε → ε'} {value : α} :
    first.mapError reword = .ok value ↔ first = .ok value := by
  cases first with
  | error error => exact ⟨nofun, nofun⟩
  | ok found =>
      constructor <;> intro same <;> cases same <;> rfl

/-- The error of a computation that fails. -/
def fault? : Except ε α → Option ε
  | .error error => some error
  | .ok _ => none

theorem fault?_eq_some_iff : fault? first = some error ↔ first = .error error := by
  cases first <;> simp [fault?]

theorem fault?_bind_pure {build : α → β} :
    fault? (first >>= fun value => pure (build value)) = fault? first := by
  cases first <;> rfl

/-- The first of two faults counts; whether the second computation has one does not depend on the
value of the first. -/
theorem fault?_bind {others : Option ε} (same : ∀ value, fault? (next value) = others) :
    fault? (first >>= next) = (fault? first).or others := by
  cases first with
  | error error => rfl
  | ok value => exact same value

end

/-- The outcome with what had happened before it. -/
def Outcome.after {α : Type} (events : List Event) (outcome : Outcome α) : Outcome α :=
  ⟨outcome.result, events ++ outcome.events, outcome.nextId⟩

theorem Outcome.after_after {α : Type} {events later : List Event} {outcome : Outcome α} :
    (outcome.after later).after events = outcome.after (events ++ later) := by
  simp [Outcome.after]

@[simp] theorem Outcome.after_nil {α : Type} {outcome : Outcome α} : outcome.after [] = outcome := by
  simp [after]

def Outcome.map {α β : Type} (build : α → β) (outcome : Outcome α) : Outcome β :=
  ⟨outcome.result.map build, outcome.events, outcome.nextId⟩

@[simp] theorem Outcome.map_id {α : Type} {outcome : Outcome α} :
    outcome.map (fun value => value) = outcome := by
  obtain ⟨_ | _, _, _⟩ := outcome <;> rfl

namespace Run

variable {α β : Type} {first : Run α} {next : α → Run β} {value : α} {error : EvalError}
variable {events : List Event} {id middle : Nat}

theorem bind_ok (done : first id = ⟨.ok value, events, middle⟩) :
    (first >>= next) id = (next value middle).after events := by
  change Run.bind first next id = _
  rw [Run.bind, done]
  rfl

theorem bind_error (failed : first id = ⟨.error error, events, middle⟩) :
    (first >>= next) id = ⟨.error error, events, middle⟩ := by
  change Run.bind first next id = _
  rw [Run.bind, failed]

theorem pure_after {value : α} :
    ((Pure.pure value : Run α) middle).after events = ⟨.ok value, events, middle⟩ := by
  simp [Pure.pure, Run.pure, Outcome.after]

/-- However computations are grouped, what happens in them is recorded in the order of the parts. -/
instance : LawfulMonad Run := .mk' Run
  (fun first => funext fun id => by
    rcases done : first id with ⟨error | value, events, middle⟩
    · exact bind_error done
    · exact (bind_ok done).trans pure_after)
  (fun value next => funext fun id => (bind_ok rfl).trans Outcome.after_nil)
  (fun first next last => funext fun id => by
    rcases done : first id with ⟨error | value, events, middle⟩
    · rw [bind_error done, bind_error (bind_error done)]
    · have before : (first >>= next) id = (next value middle).after events := bind_ok done
      rw [bind_ok done]
      rcases doneNext : next value middle with ⟨error | valueNext, eventsNext, later⟩
      all_goals rw [doneNext] at before
      · rw [bind_error before, bind_error doneNext]
        rfl
      · rw [bind_ok before, bind_ok doneNext, Outcome.after_after])

theorem ofExcept_after {result : Except EvalError α} :
    (ofExcept result middle).after events = ⟨result, events, middle⟩ := by
  cases result <;> simp [ofExcept, Run.pure, fail, Outcome.after]

end Run

end EtherCalc
