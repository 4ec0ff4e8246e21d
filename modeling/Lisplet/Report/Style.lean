/-!
# Report/Style — how messages stand out

A style is either plain or adorned with terminal escapes.  An adorned text starts with the escapes
for its weight and colour and ends with one that resets them all.
-/

namespace Lisplet

/-- The colours of messages. -/
inductive Colour where
  | red
  | magenta
deriving DecidableEq, Repr

/-- The escape that starts a colour. -/
def Colour.start : Colour → String
  | .red => "\x1b[31m"
  | .magenta => "\x1b[35m"

/-- How messages are adorned. -/
inductive Style where
  /-- Not at all. -/
  | plain
  /-- With terminal escapes. -/
  | adorned
deriving DecidableEq, Repr

namespace Style

/-- The escape that starts bold text. -/
def boldStart : String := "\x1b[1m"

/-- The escape that ends every adornment. -/
def reset : String := "\x1b[0m"

/-- A text in bold. -/
def bold (text : String) : Style → String
  | .plain => text
  | .adorned => boldStart ++ text ++ reset

/-- A text in bold and in a colour. -/
def boldIn (colour : Colour) (text : String) : Style → String
  | .plain => text
  | .adorned => boldStart ++ colour.start ++ text ++ reset

end Style

/-- A text in a colour, whatever the style. -/
def Colour.paint (colour : Colour) (text : String) : String := colour.start ++ text ++ Style.reset

end Lisplet
