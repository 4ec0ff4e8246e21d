/-!
# Text/Lines — the lines of a text

In a file a line ends at a line feed, a carriage return, or the two together; typed input and a
line history end lines at line feeds only.  A text that ends with a line end has no line after it.
-/

namespace Lisplet

/-- The lines of a text in which each of the three line ends counts; `line` holds the characters of
the line so far, in reverse. -/
def splitLinesFrom (line : List Char) : List Char → List String
  | [] => if line.isEmpty then [] else [String.ofList line.reverse]
  | '\r' :: '\n' :: cs => String.ofList line.reverse :: splitLinesFrom [] cs
  | '\r' :: cs => String.ofList line.reverse :: splitLinesFrom [] cs
  | '\n' :: cs => String.ofList line.reverse :: splitLinesFrom [] cs
  | c :: cs => splitLinesFrom (c :: line) cs

/-- **The lines of a file.** -/
def fileLines (cs : List Char) : List String := splitLinesFrom [] cs

/-- The pieces of a row between occurrences of a mark: one more than there are occurrences. -/
def piecesAt {α : Type} [BEq α] (mark : α) (as : List α) : List (List α) :=
  as.foldr (fun a pieces =>
    if a == mark then [] :: pieces
    else match pieces with
      | piece :: pieces => (a :: piece) :: pieces
      | [] => [[a]]) [[]]

/-- **The lines of typed input**: the pieces between line feeds, without an empty last one. -/
def typedLines (text : String) : List String :=
  let pieces := piecesAt '\n' text.toList
  (if pieces.getLast?.any (·.isEmpty) then pieces.dropLast else pieces).map String.ofList

end Lisplet
