import EtherCalc.Config
import EtherCalc.EvalError
import EtherCalc.Nested
import EtherCalc.Parser

namespace EtherCalc

/-!
Grammars.  A grammar turns a source text into candidate expressions, nested in any way, under
the configuration of the engine that asks.  One candidate is right when all leaves are equal;
`Grammar.single` finds it.
-/

structure Grammar where
  feed : Config → String → Except ParseError (List (Nested Expr))

namespace Grammar

/-- The grammar of the language with a nesting limit taken from the configuration. -/
def withLimit (limit : Config → Nat) : Grammar where
  feed config source := (Parser.parse (limit config) source).map fun expr => [.leaf expr]

def builtin : Grammar :=
  withLimit Config.maxDepth

/-- The grammar of the language at half the allowed depth. -/
def shallow : Grammar :=
  withLimit (·.maxDepth / 2)

/-- The same candidates for every source. -/
def canned (forest : List (Nested Expr)) : Grammar where
  feed _ _ := .ok forest

/-- A grammar without any expression. -/
def refusing : Grammar where
  feed _ source :=
    .error (.unlocated (.custom ("refused " ++ toString source.utf8ByteSize ++ " bytes")))

/-- The different ones of some expressions, each in its first place. -/
def distinct (exprs : List Expr) : List Expr :=
  exprs.foldl (fun found expr => if expr ∈ found then found else found ++ [expr]) []

/-- The one expression that all the candidates are. -/
def single (exprs : List Expr) : Except EvalError Expr :=
  match distinct exprs with
  | [expr] => .ok expr
  | found => .error (.ambiguous found.length)

/-- The one expression that all the leaves of a forest are. -/
def select (forest : List (Nested Expr)) : Except EvalError Expr :=
  single (Nested.leaves forest)

end Grammar

end EtherCalc
