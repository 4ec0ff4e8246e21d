import Lisplet.Token.Lexer

/-!
# Proofs/Token/StringBody — how a string is written between its quotes

Between its quotes a string is written in units: a character that stands for itself, or a backslash
and the character it takes along; `escapeValue` lists what these two stand for.  `Writes` says which
value a row of units stands for.  A string is closed by the first quote that is no part of a unit,
so `read` finds one of three things: units and a closing quote, units up to the end of the text, or
units and a last backslash that takes nothing along.
-/

namespace Lisplet

/-- There are two quotes. -/
theorem isQuote_iff {q : Char} : isQuote q = true ↔ q = '"' ∨ q = '\'' := by
  rw [isQuote, Bool.or_eq_true, decide_eq_true_eq, decide_eq_true_eq]

/-- A backslash opens no string. -/
theorem ne_backslash_of_isQuote {q : Char} (h : isQuote q = true) : q ≠ '\\' := by
  obtain rfl | rfl := isQuote_iff.mp h <;> decide

/-- **What a backslash and a character stand for**: a line feed, a tab or a carriage return for the
letters `n`, `t` and `r`, and the character itself for any other. -/
def escapeValue : Char → Char
  | 'n' => '\n'
  | 't' => '\t'
  | 'r' => '\r'
  | c => c

/-- The lexer decodes by this table. -/
theorem unescape_eq_escapeValue (c : Char) : unescape c = escapeValue c := by
  fun_cases escapeValue c with
  | case1 | case2 | case3 => rfl
  | case4 c hn ht hr => rw [unescape, if_neg hn, if_neg ht, if_neg hr]

namespace StringBody

/-- **Characters that write a value** between quotes `q`: each is one of the value itself, or a
backslash and a character that together stand for one. -/
inductive Writes (q : Char) : List Char → List Char → Prop
  | nil : Writes q [] []
  | plain {c : Char} {cs value : List Char} : c ≠ q → c ≠ '\\' → Writes q cs value →
      Writes q (c :: cs) (c :: value)
  | escaped {c : Char} {cs value : List Char} : Writes q cs value →
      Writes q ('\\' :: c :: cs) (escapeValue c :: value)

/-! ## What is written is read -/

/-- The quote closes the string. -/
theorem read_quote (q : Char) (cs : List Char) : read q (q :: cs) = .closed [] cs := by
  rw [read.eq_def]
  exact if_pos rfl

/-- Any other character but the backslash stands for itself. -/
theorem read_plain {q c : Char} (hc : c ≠ q) (hb : c ≠ '\\') (cs : List Char) :
    read q (c :: cs) = (read q cs).push c := by
  rw [read.eq_def]
  exact (if_neg hc).trans (if_neg hb)

/-- A backslash and the character that it takes along are read together. -/
theorem read_backslash {q : Char} (hq : q ≠ '\\') (e : Char) (cs : List Char) :
    read q ('\\' :: e :: cs) = (read q cs).push (escapeValue e) := by
  simp [read, hq.symm, unescape_eq_escapeValue]

theorem read_backslash_nil {q : Char} (hq : q ≠ '\\') : read q ['\\'] = .broken := by
  simp [read, hq.symm]

/-- Units are read one after another, whatever stands behind them. -/
theorem Writes.read_append {q : Char} (hq : q ≠ '\\') {cs value : List Char}
    (h : Writes q cs value) (rest : List Char) :
    read q (cs ++ rest) = value.foldr push (read q rest) := by
  induction h with
  | nil => rfl
  | plain hc hb _ ih =>
    rw [List.cons_append, read_plain hc hb, ih]
    rfl
  | escaped _ ih =>
    rw [List.cons_append, List.cons_append, read_backslash hq, ih]
    rfl

theorem foldr_push_closed (value rest : List Char) :
    value.foldr push (.closed [] rest) = .closed value rest := by
  induction value with
  | nil => rfl
  | cons c value ih => rw [List.foldr_cons, ih, push]

/-- A string that is not closed stays so, whatever stands in front. -/
theorem foldr_push_of_forall {b : StringBody} (h : ∀ c, b.push c = b) (value : List Char) :
    value.foldr push b = b := by
  induction value with
  | nil => rfl
  | cons c value ih => rw [List.foldr_cons, ih, h]

section

variable {q : Char} {cs value : List Char} (hq : q ≠ '\\') (h : Writes q cs value)

include hq h

/-- A string ends at the first quote behind its units. -/
theorem Writes.read_closed (rest : List Char) :
    read q (cs ++ q :: rest) = .closed value rest := by
  rw [h.read_append hq, read_quote, foldr_push_closed]

/-- A string of units alone is never closed. -/
theorem Writes.read_unclosed : read q cs = .unclosed := by
  have hread := h.read_append hq []
  rwa [List.append_nil, read, foldr_push_of_forall fun _ => rfl] at hread

/-- A last backslash has nothing to take along. -/
theorem Writes.read_broken : read q (cs ++ ['\\']) = .broken := by
  rw [h.read_append hq, read_backslash_nil hq, foldr_push_of_forall fun _ => rfl]

end

/-! ## What is read was written -/

theorem push_eq_unclosed_iff {c : Char} {b : StringBody} : b.push c = .unclosed ↔ b = .unclosed := by
  cases b <;> simp [push]

theorem push_eq_broken_iff {c : Char} {b : StringBody} : b.push c = .broken ↔ b = .broken := by
  cases b <;> simp [push]

/-- **A closed string** is written by units and closed by a quote. -/
theorem writes_of_read_closed {q : Char} {cs value rest : List Char}
    (h : read q cs = .closed value rest) : ∃ body, cs = body ++ q :: rest ∧ Writes q body value := by
  fun_induction read q cs generalizing value with
  | case1 => simp at h
  | case2 cs =>
    obtain ⟨rfl, rfl⟩ := StringBody.closed.inj h
    exact ⟨[], rfl, .nil⟩
  | case3 => simp at h
  | case4 e cs _ ih =>
    obtain ⟨v, rfl, hv⟩ := push_eq_closed_iff.mp h
    obtain ⟨body, rfl, hbody⟩ := ih hv
    exact ⟨'\\' :: e :: body, rfl, unescape_eq_escapeValue e ▸ .escaped hbody⟩
  | case5 c cs hc hb ih =>
    obtain ⟨v, rfl, hv⟩ := push_eq_closed_iff.mp h
    obtain ⟨body, rfl, hbody⟩ := ih hv
    exact ⟨c :: body, rfl, .plain hc hb hbody⟩

/-- **A string that is never closed** is written by units up to the end of the text. -/
theorem writes_of_read_unclosed {q : Char} {cs : List Char} (h : read q cs = .unclosed) :
    ∃ value, Writes q cs value := by
  fun_induction read q cs with
  | case1 => exact ⟨[], .nil⟩
  | case2 => simp at h
  | case3 => simp at h
  | case4 e cs _ ih =>
    obtain ⟨value, hvalue⟩ := ih (push_eq_unclosed_iff.mp h)
    exact ⟨escapeValue e :: value, .escaped hvalue⟩
  | case5 c cs hc hb ih =>
    obtain ⟨value, hvalue⟩ := ih (push_eq_unclosed_iff.mp h)
    exact ⟨c :: value, .plain hc hb hvalue⟩

/-- **A string that breaks off** is written by units and one more backslash. -/
theorem writes_of_read_broken {q : Char} {cs : List Char} (h : read q cs = .broken) :
    ∃ body value, cs = body ++ ['\\'] ∧ Writes q body value := by
  fun_induction read q cs with
  | case1 => simp at h
  | case2 => simp at h
  | case3 => exact ⟨[], [], rfl, .nil⟩
  | case4 e cs _ ih =>
    obtain ⟨body, value, rfl, hbody⟩ := ih (push_eq_broken_iff.mp h)
    exact ⟨'\\' :: e :: body, escapeValue e :: value, rfl, .escaped hbody⟩
  | case5 c cs hc hb ih =>
    obtain ⟨body, value, rfl, hbody⟩ := ih (push_eq_broken_iff.mp h)
    exact ⟨c :: body, c :: value, rfl, .plain hc hb hbody⟩

end StringBody

end Lisplet
