import Lisplet.Expr.Parser
import Lisplet.Token.Position

/-!
# Expr/Position — parsing at a position among tokens

The parser works on the tokens that are left.  Here it is given a row of tokens and a position in
it, and answers with the position it leaves off at.
-/

namespace Lisplet.Expr

/-- **One expression at a position**, which is the empty list past the end. -/
def readOneAt (ts : List Token) (position : Nat) : Except Fault (Expr × Nat) :=
  (readOne (ts.drop position)).map fun (e, rest) => (e, positionAfter ts position rest)

/-- **The rest of a list whose opening parenthesis stands before a position.** -/
def readListAt (ts : List Token) (position : Nat) : Except Fault (Expr × Nat) :=
  (readList (ts.drop position)).map fun (e, rest) => (e, positionAfter ts position rest)

end Lisplet.Expr
