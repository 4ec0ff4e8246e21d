/-!
# Text/Blank — the characters that separate words

One set of blank characters serves the lexer, the trimming of lines and the test for an empty line:
the five controls from tab to carriage return, the four separators before the space, the space
itself, and the spaces and line separators beyond ASCII.
-/

namespace Lisplet

/-- A blank separates words and belongs to none. -/
def isBlank (c : Char) : Bool :=
  let n := c.toNat
  (0x09 ≤ n && n ≤ 0x0D) || (0x1C ≤ n && n ≤ 0x20) || n == 0x85 || n == 0xA0 || n == 0x1680
    || (0x2000 ≤ n && n ≤ 0x200A) || n == 0x2028 || n == 0x2029 || n == 0x202F || n == 0x205F
    || n == 0x3000

/-- Every character that core counts as white space is blank. -/
theorem isBlank_of_isWhitespace {c : Char} (h : c.isWhitespace = true) : isBlank c = true := by
  have : c = ' ' ∨ c = '\t' ∨ c = '\r' ∨ c = '\n' := by
    simpa [Char.isWhitespace, or_assoc] using h
  rcases this with rfl | rfl | rfl | rfl <;> rfl

/-! ## Trimming -/

/-- The text without the blanks at its front. -/
def skipBlanks (cs : List Char) : List Char := cs.dropWhile isBlank

/-- The text without the blanks at its end. -/
def dropTrailingBlanks (cs : List Char) : List Char := (cs.reverse.dropWhile isBlank).reverse

/-- Skipping blanks never lengthens a text. -/
theorem length_skipBlanks_le (cs : List Char) : (skipBlanks cs).length ≤ cs.length :=
  (List.dropWhile_suffix isBlank).length_le

/-- The text left after skipping starts with no blank. -/
theorem not_isBlank_of_skipBlanks {cs rest : List Char} {c : Char}
    (h : skipBlanks cs = c :: rest) : isBlank c = false := by
  have := List.head?_dropWhile_not isBlank cs
  rw [show cs.dropWhile isBlank = c :: rest from h] at this
  simpa using this

/-- A line without the blanks at its end. -/
def trimEnd (line : String) : String := String.ofList (dropTrailingBlanks line.toList)

/-- A line without the blanks at either end. -/
def trim (line : String) : String :=
  String.ofList (skipBlanks (dropTrailingBlanks line.toList))

end Lisplet
