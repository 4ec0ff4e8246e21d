import Lisplet.Decimal.Basic

/-!
# Token/Numeral — numbers as they are written in a source

A numeral is a sign or none, one digit or more, and perhaps a point with digits or none after it.
`Numeral.split` takes the longest numeral off a text, and `startsNumeral` decides by one or two
characters whether there is one.
-/

namespace Lisplet

/-- The parts of a numeral; the point is there when there is a fraction, even one of no digits. -/
structure Numeral where
  sign : List Char
  whole : List Char
  fraction : Option (List Char)
deriving DecidableEq, Repr

namespace Numeral

/-- The characters of a numeral. -/
def chars (n : Numeral) : List Char :=
  n.sign ++ n.whole ++ (n.fraction.map ('.' :: ·)).getD []

/-- The digits after the point. -/
def places (n : Numeral) : List Char := n.fraction.getD []

/-- The number without its sign, as a decimal. -/
def magnitude (n : Numeral) : Decimal :=
  ⟨Nat.ofDigitChars 10 (n.whole ++ n.places) 0, -(n.places.length : Int)⟩

/-- **The value of a numeral**: the nearest double, infinite beyond the largest. -/
def value (n : Numeral) : Float :=
  if n.sign = ['-'] then -n.magnitude.toFloat else n.magnitude.toFloat

/-- The sign at the front of a text, if there is one, and the rest. -/
def splitSign : List Char → List Char × List Char
  | '+' :: cs => (['+'], cs)
  | '-' :: cs => (['-'], cs)
  | cs => ([], cs)

/-- The point at the front of a text with the digits after it, if there is one, and the rest. -/
def splitFraction : List Char → Option (List Char) × List Char
  | '.' :: cs => (some (cs.takeWhile Char.isDigit), cs.dropWhile Char.isDigit)
  | cs => (none, cs)

/-- **The longest numeral at the front of a text**, and the rest.  Where there is none, the digits
are empty. -/
def split (cs : List Char) : Numeral × List Char :=
  let (sign, cs) := splitSign cs
  let (fraction, rest) := splitFraction (cs.dropWhile Char.isDigit)
  (⟨sign, cs.takeWhile Char.isDigit, fraction⟩, rest)

/-! ## Nothing is lost -/

theorem splitSign_append (cs : List Char) : (splitSign cs).1 ++ (splitSign cs).2 = cs := by
  fun_cases splitSign cs <;> rfl

theorem splitFraction_append (cs : List Char) :
    ((splitFraction cs).1.map ('.' :: ·)).getD [] ++ (splitFraction cs).2 = cs := by
  fun_cases splitFraction cs <;> simp [List.takeWhile_append_dropWhile]

/-- **A text is its numeral and the rest.** -/
theorem chars_split (cs : List Char) : (split cs).1.chars ++ (split cs).2 = cs := by
  simp only [split, chars, List.append_assoc]
  rw [splitFraction_append, List.takeWhile_append_dropWhile, splitSign_append]

end Numeral

/-- **Whether a text starts with a numeral**: a digit, or a sign and a digit. -/
def startsNumeral : List Char → Bool
  | c :: cs => c.isDigit || ((c = '+' || c = '-') && cs.head?.any Char.isDigit)
  | [] => false

/-- A text that starts with a numeral has a digit in it. -/
theorem whole_split_ne_nil {cs : List Char} (h : startsNumeral cs = true) :
    (Numeral.split cs).1.whole ≠ [] := by
  match cs with
  | [] => simp [startsNumeral] at h
  | c :: rest =>
    by_cases hd : c.isDigit = true
    · have h1 : c ≠ '+' := by rintro rfl; simp at hd
      have h2 : c ≠ '-' := by rintro rfl; simp at hd
      simp [Numeral.split, Numeral.splitSign, h1, h2, hd]
    · simp only [startsNumeral, hd, Bool.false_or, Bool.and_eq_true, Bool.or_eq_true,
        decide_eq_true_eq] at h
      obtain ⟨hs, hr⟩ := h
      match rest with
      | [] => simp at hr
      | d :: ds =>
        have hdd : d.isDigit = true := by simpa using hr
        rcases hs with rfl | rfl <;> simp [Numeral.split, Numeral.splitSign, hdd]

end Lisplet
