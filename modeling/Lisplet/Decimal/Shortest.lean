import Lisplet.Decimal.Basic

/-!
# Decimal/Shortest — the fewest digits that read back

A double `m · 2 ^ e`, its sign put aside, is compared with the two decimals around it on the grid
of one digit, of two digits, and so on.  The first grid with a decimal that reads back as the double
wins; of two such decimals the nearer is taken, and of two equally near ones the even.  Seventeen
digits are enough for every double, and the exact value stands behind them.

What is tested is the decimal as it will be written, so a decimal that the search finds reads back
by construction (`toFloat_of_searchFrom`).
-/

namespace Lisplet.Decimal

/-! ## The decimals around a fraction -/

/-- The power of ten just above a positive fraction: `10 ^ (p - 1) ≤ num / den < 10 ^ p`. -/
def powerAbove (num den : Nat) : Int :=
  let p : Int := (digitChars num).length - (digitChars den).length
  if num * Nat.pow 10 (-p).toNat < den * Nat.pow 10 p.toNat then p else p + 1

/-- The whole multiples of `10 ^ unit` next to a fraction, the nearer first; a fraction that is one
of them is its only neighbour. -/
def neighbours (num den : Nat) (unit : Int) : List Decimal :=
  let num := num * Nat.pow 10 (-unit).toNat
  let den := den * Nat.pow 10 unit.toNat
  let below := num / den
  let rest := num % den
  if rest = 0 then [⟨below, unit⟩]
  else if 2 * rest < den ∨ (2 * rest = den ∧ below % 2 = 0) then
    [⟨below, unit⟩, ⟨below + 1, unit⟩]
  else [⟨below + 1, unit⟩, ⟨below, unit⟩]

/-! ## The search -/

/-- The first decimal that reads back, on the grids of at least `count` digits. -/
def searchFrom (num den : Nat) (target : Float) (count : Nat) : Nat → Option Decimal
  | 0 => none
  | grids + 1 =>
    let candidates := (neighbours num den (powerAbove num den - count)).map reduced
    match candidates.find? (·.toFloat = target) with
    | some d => some d
    | none => searchFrom num den target (count + 1) grids

/-- The positive number `m · 2 ^ e` as a fraction in whole numbers. -/
def fraction (m : Nat) (e : Int) : Nat × Nat := (m * Nat.pow 2 e.toNat, Nat.pow 2 (-e).toNat)

/-- The decimal equal to `m · 2 ^ e`. -/
def exact (m : Nat) (e : Int) : Decimal :=
  if 0 ≤ e then ⟨m * Nat.pow 2 e.toNat, 0⟩ else ⟨m * Nat.pow 5 (-e).toNat, e⟩

/-- The most digits that a double needs. -/
def mostDigits : Nat := 17

/-- **The shortest decimal that reads back as a double**, whose sign does not matter; zero, the
infinities and the double that is no number have none and give zero. -/
def shortest (x : Float) : Decimal :=
  match x.toModel.unpack with
  | .finite _ m e _ =>
    let (num, den) := fraction m e
    (searchFrom num den x.abs 1 mostDigits).getD (exact m e).reduced
  | _ => ⟨0, 0⟩

/-- What reads back in the search is the target. -/
theorem toFloat_of_searchFrom {num den : Nat} {target : Float} {count grids : Nat} {d : Decimal}
    (h : searchFrom num den target count grids = some d) : d.toFloat = target := by
  induction grids generalizing count with
  | zero => simp [searchFrom] at h
  | succ grids ih =>
    rw [searchFrom] at h
    split at h
    · next found hfound =>
      obtain rfl := Option.some.inj h
      simpa using List.find?_some hfound
    · exact ih h

end Lisplet.Decimal
