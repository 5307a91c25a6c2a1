import EtherCalc.Main
import EtherCalc.Program.Text
import EtherCalc.Proofs.Expr.Depth
import EtherCalc.Proofs.Nested.Leaves
import EtherCalc.Proofs.Numeral.Grammar
import EtherCalc.Proofs.Parser.Nesting
import EtherCalc.Proofs.Parser.Report
import EtherCalc.Proofs.Parser.TreeHeight
import EtherCalc.Proofs.Semantics.Amounts
import EtherCalc.Proofs.Semantics.Candidates
import EtherCalc.Proofs.Semantics.Comparisons
import EtherCalc.Proofs.Semantics.Connectives
import EtherCalc.Proofs.Semantics.Exactness
import EtherCalc.Proofs.Semantics.Isolation
import EtherCalc.Proofs.Semantics.Limits
import EtherCalc.Proofs.Semantics.Operands
import EtherCalc.Proofs.Semantics.Phases
import EtherCalc.Proofs.Semantics.Policy
import EtherCalc.Proofs.Semantics.Receivers
import EtherCalc.Proofs.Semantics.Shown
import EtherCalc.Proofs.Semantics.Spacing
import EtherCalc.Proofs.Semantics.Substitution
import EtherCalc.Proofs.Session.Accounting
import EtherCalc.Proofs.Session.Caching
import EtherCalc.Proofs.Shell.Interaction
import EtherCalc.Proofs.Text.Places
import EtherCalc.Proofs.Value.Indexing
import EtherCalc.Proofs.Value.WrittenIntegers
import EtherCalc.Session
