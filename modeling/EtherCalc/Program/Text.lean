import EtherCalc.Program
import EtherCalc.Value.Text

namespace EtherCalc

def Operator.title : Operator → String
  | .add => "Add"
  | .sub => "Sub"
  | .mul => "Mul"
  | .div => "Div"
  | .and => "And"
  | .or => "Or"
  | .eq => "Eq"
  | .ne => "Ne"
  | .lt => "Lt"
  | .le => "Le"
  | .gt => "Gt"
  | .ge => "Ge"

def Denomination.title : Denomination → String
  | .ether => "Ether"
  | .gwei => "Gwei"
  | .wei => "Wei"

namespace Program

/-- A node with its named parts. -/
def titled (title : String) (parts : List (String × String)) : String :=
  title ++ " \x7b " ++
  ", ".intercalate (parts.map fun part => part.1 ++ ": " ++ part.2) ++ " \x7d"

mutual

def describe : Program → String
  | .literal value => "Literal(" ++ value.describe ++ ")"
  | .amount value unit => titled "UnitNode" [("value", value.describe), ("unit", unit.title)]
  | .negate operand => titled "NegateNode" [("operand", operand.describe)]
  | .variable name policy =>
      titled "VariableNode" [("name", quoted name), ("unbound", policy.title)]
  | .binary op left right =>
      titled "BinaryNode"
        [("op", op.title), ("left", left.describe), ("right", right.describe)]
  | .not operand => titled "NotNode" [("operand", operand.describe)]
  | .index target position =>
      titled "IndexNode" [("target", target.describe), ("index", position.describe)]
  | .member target name policy =>
      titled "MemberNode"
        [("target", target.describe), ("name", quoted name), ("unbound", policy.title)]
  | .call callee args =>
      titled "CallNode"
        [("callee", callee.describe), ("args", "[" ++ ", ".intercalate (describeAll args) ++ "]")]
termination_by structural program => program

def describeAll : List Program → List String
  | [] => []
  | program :: rest => program.describe :: describeAll rest
termination_by structural programs => programs

end

end Program

end EtherCalc
