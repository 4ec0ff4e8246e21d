/-!
# Message — a text with places filled in

A message to the user is a fixed text around the pieces of the program it speaks of.  The pieces
stay apart from the text, so that a style can set them off when the message is shown.
-/

namespace Lisplet

/-- A message: a lead text, then each piece with the text that follows it.  Pieces that the text
has no place for are kept and not shown. -/
structure Message where
  lead : String
  filled : List (String × String) := []
  unused : List String := []
deriving DecidableEq, Repr

namespace Message

/-- The pieces of a message, shown or not, in order. -/
def pieces (m : Message) : List String := m.filled.map (·.1) ++ m.unused

/-- The message with every piece in a style. -/
def render (style : String → String) (m : Message) : String :=
  m.lead ++ String.join (m.filled.map fun (piece, after) => style piece ++ after)

/-- The message as plain text. -/
def text (m : Message) : String := m.render id

/-! ## Templates

A template is a text with empty pairs of braces for the pieces; a doubled brace stands for
itself. -/

/-- The texts between the places of a template: always one more than there are places. -/
def splitTemplate : List Char → List Char × List (List Char)
  | '\x7b' :: '\x7b' :: rest => let (t, ts) := splitTemplate rest; ('\x7b' :: t, ts)
  | '\x7d' :: '\x7d' :: rest => let (t, ts) := splitTemplate rest; ('\x7d' :: t, ts)
  | '\x7b' :: '\x7d' :: rest => let (t, ts) := splitTemplate rest; ([], t :: ts)
  | c :: rest => let (t, ts) := splitTemplate rest; (c :: t, ts)
  | [] => ([], [])

/-- **The message of a template and its pieces**; with too few pieces, the number of the first
place that stays empty. -/
def ofTemplate (template : String) (pieces : List String) : Except Nat Message :=
  let (lead, texts) := splitTemplate template.toList
  if pieces.length < texts.length then .error pieces.length
  else .ok ⟨String.ofList lead, pieces.zip (texts.map String.ofList), pieces.drop texts.length⟩

end Message

end Lisplet
