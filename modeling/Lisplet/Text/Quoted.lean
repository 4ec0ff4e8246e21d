import Lisplet.Text.Printable

/-!
# Text/Quoted — a text in quotes, with escapes

The quoted form of a text names a symbol or a string inside a message or a tree.  It is put in
single quotes, or in double quotes if that saves escaping; the backslash and the quote in use are
escaped, and so is every character that is not printable.
-/

namespace Lisplet.Quoted

/-- **The quote that surrounds a text**: the double quote exactly when the text has a single quote
and no double quote. -/
def quoteFor (cs : List Char) : Char :=
  if cs.contains '\'' && !cs.contains '"' then '"' else '\''

/-- A number in lower-case hexadecimal digits, padded with zeros to a width. -/
def hex (width n : Nat) : List Char :=
  let digits := Nat.toDigits 16 n
  List.replicate (width - digits.length) '0' ++ digits

/-- A character as it stands between quotes `q`. -/
def escape (q c : Char) : List Char :=
  if c = q || c = '\\' then ['\\', c]
  else if c = '\n' then ['\\', 'n']
  else if c = '\r' then ['\\', 'r']
  else if c = '\t' then ['\\', 't']
  else if isPrintable c then [c]
  else if c.toNat < 0x100 then '\\' :: 'x' :: hex 2 c.toNat
  else if c.toNat < 0x10000 then '\\' :: 'u' :: hex 4 c.toNat
  else '\\' :: 'U' :: hex 8 c.toNat

/-- The quoted form of the characters of a text. -/
def encode (cs : List Char) : List Char :=
  let q := quoteFor cs
  q :: cs.flatMap (escape q) ++ [q]

end Lisplet.Quoted

namespace Lisplet

/-- A text in quotes. -/
def quote (s : String) : String := String.ofList (Quoted.encode s.toList)

/-- A bracketed list of quoted texts. -/
def quoteList (ss : List String) : String := "[" ++ ", ".intercalate (ss.map quote) ++ "]"

end Lisplet
