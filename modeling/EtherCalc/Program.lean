import EtherCalc.Config
import EtherCalc.Expr.Depth
import EtherCalc.Numeral
import EtherCalc.Value

namespace EtherCalc

/-!
Compiled expressions.  Compiling reads every literal, so a program that exists has no faulty
one, and fixes in each place what is to happen when a name or property is missing.
-/

inductive Program where
  | literal (value : Value)
  | amount (value : Program) (unit : Denomination)
  | negate (operand : Program)
  | variable (name : String) (policy : UnboundPolicy)
  | binary (op : Operator) (left right : Program)
  | not (operand : Program)
  | index (target position : Program)
  | member (target : Program) (name : String) (policy : UnboundPolicy)
  | call (callee : Program) (args : List Program)

namespace Program

/-- The text of a string literal without its first and last character, which are its quotes. -/
def unquoted (raw : String) : String :=
  String.ofList (raw.toList.drop 1).dropLast

mutual

/-- The program of a tree, or the fault of its leftmost faulty literal. -/
def ofExpr (config : Config) : Expr → Except EvalError Program
  | .number text => do
      let value ← Numeral.read text
      return .literal (.big value)
  | .scientific mantissa exponent => do
      let value ← Numeral.scientific config.maxExponent mantissa exponent
      return .literal (.big value)
  | .amount value unit => do
      let value ← ofExpr config value
      return .amount value unit
  | .negate operand => do
      let operand ← ofExpr config operand
      return .negate operand
  | .string raw => return .literal (.string (unquoted raw))
  | .bool value => return .literal (.bool value)
  | .variable name =>
      match booleanWord? name with
      | some value => return .literal (.bool value)
      | none => return .variable name config.unbound
  | .binary op left right => do
      let left ← ofExpr config left
      let right ← ofExpr config right
      return .binary op left right
  | .not operand => do
      let operand ← ofExpr config operand
      return .not operand
  | .index target position => do
      let target ← ofExpr config target
      let position ← ofExpr config position
      return .index target position
  | .member target name => do
      let target ← ofExpr config target
      return .member target name config.unbound
  | .call callee args => do
      let callee ← ofExpr config callee
      let args ← ofExprs config args
      return .call callee args
termination_by structural expr => expr

def ofExprs (config : Config) : List Expr → Except EvalError (List Program)
  | [] => return []
  | expr :: rest => do
      let program ← ofExpr config expr
      let programs ← ofExprs config rest
      return program :: programs
termination_by structural exprs => exprs

end

/-- Compiles a tree, which must not be taller than the configuration allows. -/
def compile (config : Config) (expr : Expr) : Except EvalError Program :=
  match expr.checkDepth config.maxDepth with
  | .error error => .error (.parse error)
  | .ok () => ofExpr config expr

end Program

end EtherCalc
