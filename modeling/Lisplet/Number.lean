import Lisplet.Decimal.Shortest

/-!
# Number — how a number is written

The language has one kind of number, the double, and writes it in two ways.  `numberText` is the
written form of the language: positional, whole numbers exactly and without a point, all others in
the fewest digits that read back.  `numberLabel` names a number inside the name of a token, where
every finite number shows a point or an exponent.
-/

namespace Lisplet

open Decimal
open Float.Model (UnpackedFloat)

/-- A text with a minus sign in front of it, for a negative number. -/
def withSign : UnpackedFloat.Sign → List Char → String
  | .positive, cs => String.ofList cs
  | .negative, cs => String.ofList ('-' :: cs)

/-- Whether `m · 2 ^ e` is a whole number. -/
def isWhole (m : Nat) (e : Int) : Bool := m % Nat.pow 2 (-e).toNat = 0

/-- **The written form of a number in the language.**  Both zeros are `0`. -/
def numberText (x : Float) : String :=
  match x.toModel.unpack with
  | .notANumber => "nan"
  | .infinity s => withSign s ['i', 'n', 'f']
  | .zero _ => "0"
  | .finite s m e _ =>
    withSign s (if isWhole m e then (exact (m / Nat.pow 2 (-e).toNat) (max e 0)).positional
      else (shortest x).positional)

/-- Whether a label writes a decimal positionally: from a ten-thousandth up to sixteen places before
the point. -/
def hasPlainLabel (d : Decimal) : Bool := -4 ≤ d.scale && d.scale < 16

/-- **The label of a number**: its shortest digits, with a point or an exponent. -/
def numberLabel (x : Float) : String :=
  match x.toModel.unpack with
  | .notANumber => "nan"
  | .infinity s => withSign s ['i', 'n', 'f']
  | .zero s => withSign s ['0', '.', '0']
  | .finite s .. =>
    let d := shortest x
    withSign s (if !hasPlainLabel d then d.exponential
      else if d.exponent < 0 then d.positional else d.positional ++ ['.', '0'])

end Lisplet
