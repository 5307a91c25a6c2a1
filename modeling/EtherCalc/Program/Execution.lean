import EtherCalc.Arithmetic
import EtherCalc.Context
import EtherCalc.Host
import EtherCalc.Program

namespace EtherCalc.Program

/-!
Running compiled expressions.  Every part runs once, from left to right; no operator skips an
operand.
-/

mutual

/-- The value of a program in a context. -/
def run (host : Host) (context : Context) : Program → Run Value
  | .literal value => pure value
  | .amount value unit => do
      let value ← value.run host context
      Run.ofExcept (Arithmetic.scaled unit value)
  | .negate operand => do
      let operand ← operand.run host context
      Run.ofExcept (Arithmetic.negate operand)
  | .variable name policy =>
      match context.get? name, policy with
      | some value, _ => pure value
      | none, .undefined => pure .undefined
      | none, .error => Run.fail (.unboundVariable name)
  | .binary op left right => do
      let left ← left.run host context
      let right ← right.run host context
      Run.ofExcept (Arithmetic.apply op left right)
  | .not operand => do
      let operand ← operand.run host context
      pure (Arithmetic.logicalNot operand)
  | .index target position => do
      let target ← target.run host context
      let position ← position.run host context
      target.readItem host.toObjectHost position
  | .member target name policy => do
      let target ← target.run host context
      target.readProperty host.toObjectHost policy name
  | .call callee args => do
      let callee ← callee.run host context
      let args ← runAll host context args
      callee.call (fun code receiver => host.invoke code receiver args) args
termination_by structural program => program

def runAll (host : Host) (context : Context) : List Program → Run (List Value)
  | [] => pure []
  | program :: rest => do
      let value ← program.run host context
      let values ← runAll host context rest
      pure (value :: values)
termination_by structural programs => programs

end

theorem run_not {host : Host} {context : Context} {operand : Program} :
    (Program.not operand).run host context =
      operand.run host context >>= fun value => pure (.bool !value.isTruthy) := by
  rw [run]
  simp only [Arithmetic.logicalNot_eq]

end EtherCalc.Program
