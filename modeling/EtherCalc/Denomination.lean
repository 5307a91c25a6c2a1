namespace EtherCalc

/-- The units of amounts, which are kept in wei. -/
inductive Denomination where
  | ether
  | gwei
  | wei
deriving DecidableEq, Repr

namespace Denomination

def word : Denomination → String
  | .ether => "ether"
  | .gwei => "gwei"
  | .wei => "wei"

/-- The denomination that a word names; the words are written in lower case only. -/
def ofWord? (word : String) : Option Denomination :=
  if word = "ether" then some .ether
  else if word = "gwei" then some .gwei
  else if word = "wei" then some .wei
  else none

/-- How many decimal places the denomination has in wei. -/
def decimals : Denomination → Nat
  | .ether => 18
  | .gwei => 9
  | .wei => 0

/-- One unit of the denomination in wei. -/
def scale (unit : Denomination) : Int :=
  Nat.pow 10 unit.decimals

theorem ofWord?_eq_some_iff {text : String} {unit : Denomination} :
    ofWord? text = some unit ↔ text = unit.word := by
  cases unit <;> simp only [ofWord?, word] <;> grind

end Denomination

end EtherCalc
