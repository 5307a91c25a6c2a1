namespace EtherCalc

/-!
One step of a reader.  What a reader takes from the front of a list leaves a rest that is
shorter than a bound, and the bound is what lets readers call one another without fuel.
-/

/-- A value that was read, and what is left: fewer than `bound` elements. -/
structure Taken (α β : Type) (bound : Nat) where
  value : α
  rest : List β
  shorter : rest.length < bound

namespace Taken

variable {α β γ : Type} {bound : Nat}

def within (taken : Taken α β bound) {larger : Nat} (le : bound ≤ larger) :
    Taken α β larger :=
  ⟨taken.value, taken.rest, Nat.lt_of_lt_of_le taken.shorter le⟩

def map (f : α → γ) (taken : Taken α β bound) : Taken γ β bound :=
  ⟨f taken.value, taken.rest, taken.shorter⟩

end Taken

end EtherCalc
