/-!
# Decimal/Basic — decimal numbers and their two layouts

A `Decimal` is a natural number of digits scaled by a power of ten.  Reading one gives the nearest
double; writing one gives either the positional layout, which never has an exponent, or the
exponential one.
-/

namespace Lisplet

/-- The number `digits · 10 ^ exponent`. -/
structure Decimal where
  digits : Nat
  exponent : Int
deriving DecidableEq, Repr

namespace Decimal

/-- **The double nearest to a decimal**, of two equally near ones the even. -/
def toFloat (d : Decimal) : Float := .ofModel (.ofScientific d.digits d.exponent)

/-- Moves up to `budget` zeros at the end of the digits into the exponent. -/
def dropZeros (d : Decimal) : Nat → Decimal
  | 0 => d
  | budget + 1 =>
    if d.digits % 10 = 0 then dropZeros ⟨d.digits / 10, d.exponent + 1⟩ budget else d

/-- The digits of a natural number, most significant first. -/
abbrev digitChars (n : Nat) : List Char := Nat.toDigits 10 n

/-- The same decimal without zeros at the end of its digits. -/
def reduced (d : Decimal) : Decimal := d.dropZeros (digitChars d.digits).length

/-! ## Layouts -/

/-- **The positional layout**: all digits in their places, with a point exactly when the exponent
is negative. -/
def positional (d : Decimal) : List Char :=
  let ds := digitChars d.digits
  match d.exponent with
  | .ofNat zeros => ds ++ List.replicate zeros '0'
  | .negSucc n =>
    let places := n + 1
    if places < ds.length then
      ds.take (ds.length - places) ++ '.' :: ds.drop (ds.length - places)
    else '0' :: '.' :: List.replicate (places - ds.length) '0' ++ ds

/-- The power of ten of the first digit. -/
def scale (d : Decimal) : Int := d.exponent + (digitChars d.digits).length - 1

/-- **The exponential layout**: one digit before the point, the others after it, and a signed
exponent of two digits or more. -/
def exponential (d : Decimal) : List Char :=
  let power := digitChars d.scale.natAbs
  let mark := 'e' :: (if d.scale < 0 then '-' else '+') ::
    (List.replicate (2 - power.length) '0' ++ power)
  match digitChars d.digits with
  | first :: other :: rest => first :: '.' :: other :: rest ++ mark
  | ds => ds ++ mark

end Decimal

end Lisplet
