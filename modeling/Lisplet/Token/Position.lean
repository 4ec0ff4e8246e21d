import Lisplet.Token.Lexer

/-!
# Token/Position — reading at a position of a source

The readers work on what is left of a text.  Here they are given a whole source and a position in
it, and answer with the position they leave off at.  Any position may be asked for, whether a token
starts there or not.
-/

namespace Lisplet

/-- The position after reading, when `rest` is left of a source read from a position. -/
def positionAfter {α : Type} (source : List α) (position : Nat) (rest : List α) : Nat :=
  position + ((source.drop position).length - rest.length)

/-- What is left of a source at a position is what stands there and what is left behind it. -/
theorem drop_of_getElem? {α : Type} {source : List α} {position : Nat} {a : α}
    (h : source[position]? = some a) : source.drop position = a :: source.drop (position + 1) := by
  obtain ⟨hlt, rfl⟩ := List.getElem?_eq_some_iff.mp h
  exact List.drop_eq_getElem_cons hlt

/-- Reading moves the position by as much as it takes off what is left. -/
theorem positionAfter_of_append {α : Type} {source used rest : List α} {position : Nat}
    (h : source.drop position = used ++ rest) :
    positionAfter source position rest = position + used.length ∧
      source.drop (position + used.length) = rest := by
  rw [positionAfter, h, List.length_append, Nat.add_sub_cancel, ← List.drop_drop, h,
    List.drop_left]
  exact ⟨rfl, rfl⟩

/-- The first position at or after the given one, but not after the end, where no blank stands. -/
def skipBlanksAt (source : List Char) (position : Nat) : Nat :=
  let position := min position source.length
  positionAfter source position (skipBlanks (source.drop position))

/-- Whether a numeral starts at a position; past the end the question has no answer. -/
def startsNumeralAt? (source : List Char) (position : Nat) : Option Bool :=
  match source.drop position with
  | [] => none
  | cs => some (startsNumeral cs)

namespace Token

/-- Reads at a position with any of the readers. -/
def readAtWith (reader : List Char → Except Fault (Token × List Char)) (source : List Char)
    (position : Nat) : Except Fault (Token × Nat) :=
  (reader (source.drop position)).map fun (t, rest) => (t, positionAfter source position rest)

/-- **Reads one token at a position.** -/
def readAt (source : List Char) (position : Nat) : Except Fault (Token × Nat) :=
  readAtWith read source position

/-- Reads a string at a position, whose character is its quote; past the end there is none. -/
def readStringAt? (source : List Char) (position : Nat) : Option (Except Fault (Token × Nat)) :=
  match source.drop position with
  | [] => none
  | q :: _ => some (readAtWith (fun cs => readString q cs.tail) source position)

/-- Reads a number at a position, if a numeral starts there. -/
def readNumberAt? (source : List Char) (position : Nat) : Option (Except Fault (Token × Nat)) :=
  if (startsNumeralAt? source position).getD false then
    some (readAtWith readNumber source position)
  else none

/-- Reads a symbol at a position, which is empty where none starts. -/
def readSymbolAt (source : List Char) (position : Nat) : Token × Nat :=
  let (t, rest) := readSymbol (source.drop position)
  (t, positionAfter source position rest)

end Token

end Lisplet
