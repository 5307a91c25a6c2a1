import EtherCalc.Denomination

namespace EtherCalc

/-!
Expression trees, as a grammar hands them over.  Literals keep the text they were written with;
they are read when the tree is compiled.  `Expr.same` decides equality of trees.
-/

inductive Operator where
  | add
  | sub
  | mul
  | div
  | and
  | or
  | eq
  | ne
  | lt
  | le
  | gt
  | ge
deriving DecidableEq, Repr

namespace Operator

def symbol : Operator → String
  | .add => "+"
  | .sub => "-"
  | .mul => "*"
  | .div => "/"
  | .and => "&&"
  | .or => "||"
  | .eq => "=="
  | .ne => "!="
  | .lt => "<"
  | .le => "<="
  | .gt => ">"
  | .ge => ">="

def all : List Operator :=
  [.add, .sub, .mul, .div, .and, .or, .eq, .ne, .lt, .le, .gt, .ge]

end Operator

/-- The boolean that a word spells, in any mixture of upper and lower case. -/
def booleanWord? (word : String) : Option Bool :=
  let lowered := word.toList.map Char.toLower
  if lowered = ['t', 'r', 'u', 'e'] then some true
  else if lowered = ['f', 'a', 'l', 's', 'e'] then some false
  else none

inductive Expr where
  /-- An integer literal, decimal or hexadecimal. -/
  | number (text : String)
  /-- A literal `mantissa` times ten to the `exponent`. -/
  | scientific (mantissa exponent : String)
  /-- A value in a denomination. -/
  | amount (value : Expr) (unit : Denomination)
  | negate (operand : Expr)
  /-- A string literal together with its quotes. -/
  | string (raw : String)
  | bool (value : Bool)
  | variable (name : String)
  | binary (op : Operator) (left right : Expr)
  | not (operand : Expr)
  | index (target position : Expr)
  | member (target : Expr) (name : String)
  | call (callee : Expr) (args : List Expr)

namespace Expr

/-- The tree for a name in a source text: the words for booleans are reserved. -/
def ofName (name : String) : Expr :=
  match booleanWord? name with
  | some value => .bool value
  | none => .variable name

/-- The trees directly below the root, from left to right. -/
def children : Expr → List Expr
  | .number _ | .scientific _ _ | .string _ | .bool _ | .variable _ => []
  | .amount value _ => [value]
  | .negate operand => [operand]
  | .binary _ left right => [left, right]
  | .not operand => [operand]
  | .index target position => [target, position]
  | .member target _ => [target]
  | .call callee args => callee :: args

mutual

def nodes : Expr → Nat
  | .number _ | .scientific _ _ | .string _ | .bool _ | .variable _ => 1
  | .amount value _ => value.nodes + 1
  | .negate operand => operand.nodes + 1
  | .binary _ left right => left.nodes + right.nodes + 1
  | .not operand => operand.nodes + 1
  | .index target position => target.nodes + position.nodes + 1
  | .member target _ => target.nodes + 1
  | .call callee args => callee.nodes + nodesAll args + 1
termination_by structural expr => expr

def nodesAll : List Expr → Nat
  | [] => 0
  | expr :: rest => expr.nodes + nodesAll rest
termination_by structural exprs => exprs

end

mutual

def same : Expr → Expr → Bool
  | .number text, .number text' => text == text'
  | .scientific mantissa exponent, .scientific mantissa' exponent' =>
      mantissa == mantissa' && exponent == exponent'
  | .amount value unit, .amount value' unit' => same value value' && unit == unit'
  | .negate operand, .negate operand' => same operand operand'
  | .string raw, .string raw' => raw == raw'
  | .bool value, .bool value' => value == value'
  | .variable name, .variable name' => name == name'
  | .binary op left right, .binary op' left' right' =>
      op == op' && same left left' && same right right'
  | .not operand, .not operand' => same operand operand'
  | .index target position, .index target' position' =>
      same target target' && same position position'
  | .member target name, .member target' name' => same target target' && name == name'
  | .call callee args, .call callee' args' => same callee callee' && sameAll args args'
  | _, _ => false
termination_by structural expr => expr

def sameAll : List Expr → List Expr → Bool
  | [], [] => true
  | expr :: rest, expr' :: rest' => same expr expr' && sameAll rest rest'
  | _, _ => false
termination_by structural exprs => exprs

end

mutual

theorem same_iff : (left right : Expr) → (same left right = true ↔ left = right)
  | .number _, right | .scientific _ _, right | .string _, right | .bool _, right
  | .variable _, right => by cases right <;> simp [same]
  | .amount value _, right => by cases right <;> simp [same, same_iff value]
  | .negate operand, right => by cases right <;> simp [same, same_iff operand]
  | .binary _ left right, other => by
      cases other <;> simp [same, same_iff left, same_iff right, and_assoc]
  | .not operand, right => by cases right <;> simp [same, same_iff operand]
  | .index target position, right => by
      cases right <;> simp [same, same_iff target, same_iff position]
  | .member target _, right => by cases right <;> simp [same, same_iff target]
  | .call callee args, right => by
      cases right <;> simp [same, same_iff callee, sameAll_iff args]

theorem sameAll_iff : (left right : List Expr) → (sameAll left right = true ↔ left = right)
  | [], right => by cases right <;> simp [sameAll]
  | expr :: rest, right => by
      cases right <;> simp [sameAll, same_iff expr, sameAll_iff rest]

end

instance : DecidableEq Expr := fun left right =>
  decidable_of_iff (same left right = true) (same_iff left right)

end Expr

end EtherCalc
