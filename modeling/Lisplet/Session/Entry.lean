import Lisplet.Text.Blank

/-!
# Session/Entry — gathering lines into entries

A file is evaluated entry by entry.  An entry is one line, or several when the text so far has more
opening than closing parentheses; it is numbered by its first line.  Blank lines outside an entry
are dropped.
-/

namespace Lisplet

/-- A text to evaluate, with the number of the line it starts on. -/
structure Entry where
  text : String
  number : Int
deriving DecidableEq, Repr

/-- **Whether a text goes on on the next line**: it has more opening than closing parentheses,
wherever they stand. -/
def isUnfinished (text : String) : Bool :=
  text.toList.count ')' < text.toList.count '('

/-- What gathering has come to: the entries so far, the newest first, and whether the newest goes
on on the next line. -/
structure Gathering where
  entries : List Entry := []
  unfinished : Bool := false
deriving DecidableEq, Repr

namespace Gathering

/-- The entries, in the order of their lines. -/
def inOrder (g : Gathering) : List Entry := g.entries.reverse

/-- Adds an entry, unless it is blank. -/
def push (entries : List Entry) (entry : Entry) : Gathering where
  entries := if (trim entry.text).isEmpty then entries else entry :: entries
  unfinished := isUnfinished entry.text

/-- **Takes in one line**: it joins the newest entry after a space if that is unfinished, and else
starts an entry of its own.  The result is the text of that entry with the new gathering; there is
none if a line should join and there is no entry. -/
def feed (g : Gathering) (line : String) (number : Int) : Option (String × Gathering) :=
  if g.unfinished then
    match g.entries with
    | [] => none
    | newest :: older =>
      let text := newest.text ++ " " ++ trimEnd line
      some (text, push older ⟨text, newest.number⟩)
  else
    let text := trimEnd line
    some (text, push g.entries ⟨text, number⟩)

/-- Takes in lines that are numbered from `number`. -/
def feedAll (g : Gathering) (number : Int) : List String → Option Gathering
  | [] => some g
  | line :: lines =>
    match g.feed line number with
    | none => none
    | some (_, next) => next.feedAll (number + 1) lines

end Gathering

end Lisplet
