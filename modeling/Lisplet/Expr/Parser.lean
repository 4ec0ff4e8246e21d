import Lisplet.Token.Lexer

/-!
# Expr/Parser — from tokens to one expression

The parser goes over the tokens once and keeps the lists that are still open, the innermost first,
each with its elements so far in reverse.  A closing parenthesis makes the innermost list an
element of the next one, or the result when no other is open.
-/

namespace Lisplet.Expr

/-- **Reads up to the end of the lists that are open**: `inner` holds the elements so far of the
innermost list, the newest first, and `outer` those of the lists around it. -/
def readOpen (inner : List Expr) (outer : List (List Expr)) :
    List Token → Except Fault (Expr × List Token)
  | [] => .error .openList
  | .lparen :: ts => readOpen [] (inner :: outer) ts
  | .rparen :: ts =>
    match outer with
    | [] => .ok (.list inner.reverse, ts)
    | next :: outer => readOpen (.list inner.reverse :: next) outer ts
  | .number x :: ts => readOpen (.number x :: inner) outer ts
  | .symbol name :: ts => readOpen (.symbol name :: inner) outer ts
  | .string value :: _ => .error (.stringToken value)
  | .finish :: _ => .error .finishToken

/-- The rest of a list whose opening parenthesis is taken, and the tokens after it. -/
def readList (ts : List Token) : Except Fault (Expr × List Token) := readOpen [] [] ts

/-- **One expression off the front of the tokens**, and the tokens after it.  No tokens at all are
the empty list. -/
def readOne : List Token → Except Fault (Expr × List Token)
  | [] => .ok (.list [], [])
  | .lparen :: ts => readList ts
  | .rparen :: _ => .error .strayClose
  | .number x :: ts => .ok (.number x, ts)
  | .symbol name :: ts => .ok (.symbol name, ts)
  | .string value :: _ => .error (.stringToken value)
  | .finish :: _ => .error .finishToken

/-- **The expression that the tokens form**, with none left over. -/
def ofTokens (ts : List Token) : Except Fault Expr :=
  match readOne ts with
  | .error fault => .error fault
  | .ok (e, []) => .ok e
  | .ok (_, _ :: _) => .error .leftover

/-- **The expression written in a source.**  The whole source is divided into tokens first, so a
lexical fault wins over a syntactic one. -/
def ofSource (source : String) : Except Fault Expr :=
  match Token.ofSource source with
  | .error fault => .error fault
  | .ok ts => ofTokens ts

end Lisplet.Expr
