import Lisplet.Fault
import Lisplet.Text.Blank
import Lisplet.Token
import Lisplet.Token.Numeral

/-!
# Token/Lexer — from a text to its tokens

`Token.read` takes one token off a text that starts with no blank, and `Token.stream` repeats it up
to the end of the text or the first fault.  Every token read shortens the text
(`length_lt_of_read`), so the stream ends.
-/

namespace Lisplet

/-! ## Strings -/

/-- Whether a character opens a string. -/
def isQuote (c : Char) : Bool := c = '"' || c = '\''

/-- Whether a character ends a symbol although it is no blank. -/
def isDelimiter (c : Char) : Bool := c = '(' || c = ')' || isQuote c

/-- The character that a backslash and `c` stand for. -/
def unescape (c : Char) : Char :=
  if c = 'n' then '\n' else if c = 't' then '\t' else if c = 'r' then '\r' else c

/-- What follows an opening quote. -/
inductive StringBody where
  /-- The value of the string, and the text after its closing quote. -/
  | closed (value rest : List Char)
  /-- The text ends in the string. -/
  | unclosed
  /-- The text ends in the string, right after a backslash. -/
  | broken
deriving DecidableEq, Repr

namespace StringBody

/-- The same body with one more character in front. -/
def push (c : Char) : StringBody → StringBody
  | .closed value rest => .closed (c :: value) rest
  | .unclosed => .unclosed
  | .broken => .broken

/-- **Reads a string up to its closing quote**; a backslash takes the next character with it. -/
def read (q : Char) : List Char → StringBody
  | [] => .unclosed
  | c :: cs =>
    if c = q then .closed [] cs
    else if c = '\\' then
      match cs with
      | [] => .broken
      | e :: cs => (read q cs).push (unescape e)
    else (read q cs).push c

theorem push_eq_closed_iff {c : Char} {b : StringBody} {value rest : List Char} :
    b.push c = .closed value rest ↔ ∃ v, value = c :: v ∧ b = .closed v rest := by
  cases b <;> simp only [push, StringBody.closed.injEq, reduceCtorEq, and_false, exists_false]
  constructor
  · rintro ⟨rfl, rfl⟩
    exact ⟨_, rfl, rfl, rfl⟩
  · rintro ⟨v, rfl, rfl, rfl⟩
    exact ⟨rfl, rfl⟩

/-- A closed string leaves less text than there was after its opening quote. -/
theorem length_lt_of_read {q : Char} {cs value rest : List Char}
    (h : read q cs = .closed value rest) : rest.length < cs.length := by
  fun_induction read q cs generalizing value with
  | case1 => simp at h
  | case2 cs =>
    simp only [StringBody.closed.injEq] at h
    simp [h.2]
  | case3 => simp at h
  | case4 hq e cs ih =>
    obtain ⟨v, -, hv⟩ := push_eq_closed_iff.mp h
    have := ih hv
    simp only [List.length_cons]
    omega
  | case5 c cs hq hb ih =>
    obtain ⟨v, -, hv⟩ := push_eq_closed_iff.mp h
    have := ih hv
    simp only [List.length_cons]
    omega

end StringBody

namespace Token

/-! ## One token -/

/-- Reads a string whose opening quote `q` is already taken. -/
def readString (q : Char) (cs : List Char) : Except Fault (Token × List Char) :=
  match StringBody.read q cs with
  | .closed value rest => .ok (.string (String.ofList value), rest)
  | .unclosed => .error (.openString (String.ofList (q :: cs)))
  | .broken => .error (.brokenEscape (String.ofList (q :: cs)))

/-- Reads the longest numeral. -/
def readNumber (cs : List Char) : Except Fault (Token × List Char) :=
  let (numeral, rest) := Numeral.split cs
  if numeral.value.isFinite then .ok (.number numeral.value, rest)
  else .error (.numeralRange (String.ofList numeral.chars))

/-- Whether a character may stand in a symbol. -/
def isSymbolChar (c : Char) : Bool := !isBlank c && !isDelimiter c

/-- Reads a symbol up to the next blank, parenthesis or quote. -/
def readSymbol (cs : List Char) : Token × List Char :=
  (.symbol (String.ofList (cs.takeWhile isSymbolChar)), cs.dropWhile isSymbolChar)

/-- **Reads one token** off a text that starts with no blank, by its first one or two characters. -/
def read : List Char → Except Fault (Token × List Char)
  | [] => .ok (.finish, [])
  | c :: cs =>
    if c = '(' then .ok (.lparen, cs)
    else if c = ')' then .ok (.rparen, cs)
    else if isQuote c then readString c cs
    else if startsNumeral (c :: cs) then readNumber (c :: cs)
    else .ok (readSymbol (c :: cs))

/-! ## Reading shortens the text -/

theorem length_lt_of_readString {q : Char} {cs rest : List Char} {t : Token}
    (h : readString q cs = .ok (t, rest)) : rest.length < cs.length := by
  unfold readString at h
  split at h
  · next hr =>
    simp only [Except.ok.injEq, Prod.mk.injEq] at h
    exact h.2 ▸ StringBody.length_lt_of_read hr
  all_goals simp at h

theorem length_lt_of_readNumber {cs rest : List Char} {t : Token} (hs : startsNumeral cs = true)
    (h : readNumber cs = .ok (t, rest)) : rest.length < cs.length := by
  have hrest : rest = (Numeral.split cs).2 := by
    simp only [readNumber] at h
    split at h <;> simp_all
  have hlen := congrArg List.length (Numeral.chars_split cs)
  have hpos := List.length_pos_iff.mpr (whole_split_ne_nil hs)
  simp only [Numeral.chars, List.length_append] at hlen
  rw [hrest]
  omega

/-- **A token read off a text without a blank in front leaves less text.** -/
theorem length_lt_of_read {c : Char} {cs rest : List Char} {t : Token} (hc : isBlank c = false)
    (h : read (c :: cs) = .ok (t, rest)) : rest.length < (c :: cs).length := by
  rw [read] at h
  split at h
  · simp_all
  split at h
  · simp_all
  split at h
  · have := length_lt_of_readString h
    simp only [List.length_cons]
    omega
  split at h
  · next hs => exact length_lt_of_readNumber hs h
  · next h1 h2 h3 _ =>
    have hsym : isSymbolChar c = true := by simp_all [isSymbolChar, isDelimiter]
    simp only [readSymbol, Except.ok.injEq, Prod.mk.injEq] at h
    rw [← h.2, List.dropWhile_cons, if_pos hsym]
    have := (List.dropWhile_suffix isSymbolChar (l := cs)).length_le
    simp only [List.length_cons]
    omega

/-! ## The stream -/

/-- **The tokens of a text in order, up to the first fault** if there is one.  The end of the text
ends the stream and is no token of it. -/
def stream (cs : List Char) : List Token × Option Fault :=
  match _ : skipBlanks cs with
  | [] => ([], none)
  | c :: rest =>
    match _ : read (c :: rest) with
    | .error fault => ([], some fault)
    | .ok (t, after) =>
      let (ts, fault) := stream after
      (t :: ts, fault)
termination_by cs.length
decreasing_by
  have h : skipBlanks cs = c :: rest := by assumption
  have h1 := length_lt_of_read (not_isBlank_of_skipBlanks h) ‹_›
  have h2 := length_skipBlanks_le cs
  rw [h] at h2
  omega

/-- **All tokens of a source**, or the fault that its stream stops at. -/
def ofSource (source : String) : Except Fault (List Token) :=
  match stream source.toList with
  | (ts, none) => .ok ts
  | (_, some fault) => .error fault

end Token

end Lisplet
