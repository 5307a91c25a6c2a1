import Mathlib

namespace EtherCalc

open StateTransition

variable {σ β : Type} {step : σ → Option σ}

/-- The state that a loop ends in is known from a view of the state that it starts from, if no step
changes the view and the last state is known from its own. -/
theorem loop_ends (size : σ → Nat) (view : σ → β) (final : β → σ)
    (falls : ∀ {state next}, step state = some next → size next < size state)
    (keeps : ∀ {state next}, step state = some next → view next = view state)
    (last : ∀ {state}, step state = none → state = final (view state)) (start : σ) :
    eval step start = Part.some (final (view start)) := by
  induction bound : size start using Nat.strong_induction_on generalizing start with
  | h _ ih =>
      cases taken : step start with
      | none =>
          have ended : start ∈ eval step start := mem_eval.mpr ⟨.refl, taken⟩
          rw [← last taken]
          exact Part.eq_some_iff.mpr ended
      | some next =>
          have goesOn : eval step start = eval step next := reaches_eval (.single taken)
          rw [goesOn, ← keeps taken]
          exact ih (size next) (bound ▸ falls taken) next rfl

end EtherCalc
