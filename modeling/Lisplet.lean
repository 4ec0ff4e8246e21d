import Lisplet.Expr.Position
import Lisplet.Main
import Lisplet.Proofs.Eval.Program
import Lisplet.Proofs.Eval.Rules
import Lisplet.Proofs.Eval.Scoping
import Lisplet.Proofs.Eval.SourceForm
import Lisplet.Proofs.Expr.Descent
import Lisplet.Proofs.Expr.Outline
import Lisplet.Proofs.Expr.Refusal
import Lisplet.Proofs.Expr.RoundTrip
import Lisplet.Proofs.Session.Command
import Lisplet.Proofs.Session.Continuation
import Lisplet.Proofs.Session.Direct
import Lisplet.Proofs.Session.Modes
import Lisplet.Proofs.Session.Stack
import Lisplet.Proofs.Token.StringUnit
import Lisplet.Proofs.Token.NumeralPattern
import Lisplet.Proofs.Eval.Limit
import Lisplet.Proofs.Double.Normal
import Lisplet.Proofs.Eval.Sum
import Lisplet.Proofs.Session.FileRun
