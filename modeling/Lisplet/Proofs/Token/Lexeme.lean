import Lisplet.Proofs.Token.Numeral
import Lisplet.Proofs.Token.StringBody
import Lisplet.Token.Position

/-!
# Proofs/Token/Lexeme — the words of a text

`Lexeme t word rest` says that `word` writes the token `t` in front of `rest`, by the grammar of the
language alone: a parenthesis, the longest numeral, the longest name, or a string up to its closing
quote.  `Stuck` describes the texts that start with a string that is never closed or a numeral out
of range.  A text that starts with no blank begins with a lexeme or is stuck (`lexeme_or_stuck`),
and `read` finds out which (`Lexeme.read`, `Stuck.read`).
-/

namespace Lisplet

namespace Token

/-! ## One step of the stream -/

/-- The stream skips blanks, reads one token and goes on behind it. -/
theorem stream_eq (cs : List Char) :
    stream cs = match skipBlanks cs with
      | [] => ([], none)
      | c :: rest =>
        match read (c :: rest) with
        | .error fault => ([], some fault)
        | .ok (t, after) => (t :: (stream after).1, (stream after).2) := by
  rw [stream]
  split
  · next h => simp [h]
  · next h =>
    split
    · next hr => simp [h, hr]
    · next hr => simp [h, hr]

theorem stream_nil : stream [] = ([], none) := by
  rw [stream_eq]
  rfl

/-- A blank in front of a text is no part of its stream. -/
theorem stream_cons_of_isBlank {c : Char} (hc : isBlank c = true) (cs : List Char) :
    stream (c :: cs) = stream cs := by
  have hskip : skipBlanks (c :: cs) = skipBlanks cs := List.dropWhile_cons_of_pos hc
  rw [stream_eq (c :: cs), hskip, ← stream_eq cs]

theorem stream_cons_of_read {c : Char} {cs rest : List Char} {t : Token}
    (hc : isBlank c = false) (h : read (c :: cs) = .ok (t, rest)) :
    stream (c :: cs) = (t :: (stream rest).1, (stream rest).2) := by
  have hskip : skipBlanks (c :: cs) = c :: cs := by simp [skipBlanks, hc]
  rw [stream_eq, hskip]
  simp only [h]

/-! ## Names -/

theorem isSymbolChar_iff {c : Char} : isSymbolChar c = true ↔
    isBlank c = false ∧ c ≠ '(' ∧ c ≠ ')' ∧ c ≠ '"' ∧ c ≠ '\'' := by
  simp [isSymbolChar, isDelimiter, isQuote, and_assoc]

theorem isSymbolChar_of_isDigit {c : Char} (h : c.isDigit = true) : isSymbolChar c = true := by
  have hblank : isBlank c = false := by
    have hcode : 48 ≤ c.toNat ∧ c.toNat ≤ 57 := Char.isDigit_iff_toNat.mp h
    simp [isBlank]
    omega
  refine isSymbolChar_iff.mpr ⟨hblank, ?_, ?_, ?_, ?_⟩ <;> rintro rfl <;> simp at h

theorem isSymbolChar_of_startsNumeral {c : Char} {cs : List Char}
    (h : startsNumeral (c :: cs) = true) : isSymbolChar c = true := by
  simp only [startsNumeral, Bool.or_eq_true, Bool.and_eq_true, decide_eq_true_eq] at h
  obtain hd | ⟨rfl | rfl, -⟩ := h
  · exact isSymbolChar_of_isDigit hd
  · decide
  · decide

theorem isSymbolChar_of_mem_chars {n : Numeral} (h : n.WellFormed) :
    ∀ c ∈ n.chars, isSymbolChar c = true := by
  intro c hc
  rw [Numeral.chars, List.append_assoc, List.mem_append, List.mem_append] at hc
  obtain hsign | hwhole | hfraction := hc
  · have hc : c = '+' ∨ c = '-' := by
      obtain hs | hs | hs := h.sign <;> simp_all
    obtain rfl | rfl := hc <;> decide
  · exact isSymbolChar_of_isDigit (h.whole c hwhole)
  · cases hds : n.fraction with
    | none => simp [hds] at hfraction
    | some ds =>
      rw [hds, Option.map_some, Option.getD_some] at hfraction
      obtain rfl | hmem := List.mem_cons.mp hfraction
      · decide
      · exact isSymbolChar_of_isDigit (h.fraction ds hds c hmem)

/-- A word is a numeral or a symbol, by how it starts. -/
theorem read_of_isSymbolChar {c : Char} (hc : isSymbolChar c = true) (cs : List Char) :
    read (c :: cs) =
      if startsNumeral (c :: cs) then readNumber (c :: cs) else .ok (readSymbol (c :: cs)) := by
  obtain ⟨-, hopen, hclose, hdouble, hsingle⟩ := isSymbolChar_iff.mp hc
  simp [read, hopen, hclose, isQuote, hdouble, hsingle]

end Token

/-- **A name that can be written**: it is not empty, holds no blank, parenthesis or quote, and does
not start as a numeral does. -/
structure IsName (name : String) : Prop where
  ne_empty : name ≠ ""
  plain : ∀ c ∈ name.toList, isBlank c = false ∧ c ≠ '(' ∧ c ≠ ')' ∧ c ≠ '"' ∧ c ≠ '\''
  no_digit : ∀ c cs, name.toList = c :: cs → c.isDigit = false
  no_signed_digit : ∀ c d cs, name.toList = c :: d :: cs → c = '+' ∨ c = '-' → d.isDigit = false

/-- A name is what the reader of symbols takes. -/
theorem isName_iff {name : String} : IsName name ↔
    name.toList ≠ [] ∧ (∀ c ∈ name.toList, Token.isSymbolChar c = true) ∧
      startsNumeral name.toList = false := by
  constructor
  · rintro ⟨hne, hplain, hdigit, hsigned⟩
    refine ⟨by simpa using hne, fun c hc => Token.isSymbolChar_iff.mpr (hplain c hc), ?_⟩
    match h : name.toList with
    | [] => rfl
    | [c] => simp [startsNumeral, hdigit c [] h]
    | c :: d :: cs =>
      by_cases hs : c = '+' ∨ c = '-'
      · simp [startsNumeral, hdigit c _ h, hsigned c d cs h hs]
      · simp [startsNumeral, hdigit c _ h, hs]
  · rintro ⟨hne, hplain, hstart⟩
    refine ⟨by simpa using hne, fun c hc => Token.isSymbolChar_iff.mp (hplain c hc),
      fun c cs h => ?_, fun c d cs h hs => ?_⟩
    · rw [h] at hstart
      simp only [startsNumeral, Bool.or_eq_false_iff] at hstart
      exact hstart.1
    · rw [h] at hstart
      simpa [startsNumeral, hs] using (Bool.or_eq_false_iff.mp hstart).2

/-- Whether a text is a name is decided character by character. -/
instance (name : String) : Decidable (IsName name) :=
  decidable_of_iff (name.toList ≠ [] ∧ name.toList.all Token.isSymbolChar = true ∧
    startsNumeral name.toList = false) (by rw [isName_iff, List.all_eq_true])

/-- A text in front of which a word ends: nothing, a blank, a parenthesis or a quote. -/
def Boundary (cs : List Char) : Prop := ∀ c, cs.head? = some c → Token.isSymbolChar c = false

/-- A word ends in front of a blank. -/
theorem boundary_of_isBlank {c : Char} (hc : isBlank c = true) (cs : List Char) :
    Boundary (c :: cs) := by
  intro d hd
  obtain rfl : c = d := by simpa using hd
  simp [Token.isSymbolChar, hc]

theorem Boundary.ends {cs : List Char} (h : Boundary cs) : Numeral.Ends cs := by
  intro c hc
  have hword := h c hc
  refine ⟨Bool.eq_false_iff.mpr fun hd => ?_, ?_⟩
  · simp [Token.isSymbolChar_of_isDigit hd] at hword
  · rintro rfl
    exact absurd hword (by decide)

/-- A boundary does not make a numeral of a name. -/
theorem IsName.startsNumeral_append {name : String} (h : IsName name) {rest : List Char}
    (hrest : Boundary rest) : startsNumeral (name.toList ++ rest) = false := by
  obtain ⟨hne, -, hstart⟩ := isName_iff.mp h
  match hn : name.toList with
  | [] => exact absurd hn hne
  | [c] =>
    have hhead : rest.head?.any Char.isDigit = false := by
      cases rest with
      | nil => rfl
      | cons d rest => exact (hrest.ends d rfl).1
    simp [startsNumeral, h.no_digit c [] hn, hhead]
  | c :: d :: cs =>
    rw [hn] at hstart
    exact hstart

namespace Token

/-- What is cut out of a text as a symbol is a name, even right behind a numeral. -/
theorem isName_takeWhile {c : Char} {cs : List Char} (hc : isSymbolChar c = true)
    (hs : startsNumeral (c :: cs) = false) :
    IsName (String.ofList ((c :: cs).takeWhile isSymbolChar)) := by
  rw [isName_iff, String.toList_ofList]
  refine ⟨by simp [hc], fun d hd => List.all_eq_true.mp List.all_takeWhile d hd, ?_⟩
  rw [List.takeWhile_cons_of_pos hc]
  cases cs with
  | nil => exact hs
  | cons d ds =>
    by_cases hd : isSymbolChar d = true
    · rw [List.takeWhile_cons_of_pos hd]
      exact hs
    · rw [List.takeWhile_cons_of_neg hd]
      simpa [startsNumeral] using (Bool.or_eq_false_iff.mp hs).1

/-! ## Lexemes -/

/-- **A word writes a token** in front of a text: a parenthesis is a word of its own, a number is
written by the longest numeral there, a symbol by a name that ends where the text goes on with
something else, and a string by what stands between two of the same quotes. -/
inductive Lexeme : Token → List Char → List Char → Prop
  | lparen {rest : List Char} : Lexeme .lparen ['('] rest
  | rparen {rest : List Char} : Lexeme .rparen [')'] rest
  | number {n : Numeral} {rest : List Char} : n.WellFormed → n.Longest rest →
      n.value.isFinite = true → Lexeme (.number n.value) n.chars rest
  | symbol {name : String} {rest : List Char} : IsName name → Boundary rest →
      Lexeme (.symbol name) name.toList rest
  | string {q : Char} {body value rest : List Char} : isQuote q = true →
      StringBody.Writes q body value →
      Lexeme (.string (String.ofList value)) (q :: (body ++ [q])) rest

/-- **A text that starts with no word**, and the fault that is found there: a string whose units go
on to the end of the text, or to a last backslash, or a numeral beyond the largest number. -/
inductive Stuck : List Char → Fault → Prop
  | openString {q : Char} {cs value : List Char} : isQuote q = true →
      StringBody.Writes q cs value → Stuck (q :: cs) (.openString (String.ofList (q :: cs)))
  | brokenEscape {q : Char} {body value : List Char} : isQuote q = true →
      StringBody.Writes q body value →
      Stuck (q :: (body ++ ['\\'])) (.brokenEscape (String.ofList (q :: (body ++ ['\\']))))
  | numeralRange {n : Numeral} {rest : List Char} : n.WellFormed → n.Longest rest →
      n.value.isFinite = false →
      Stuck (n.chars ++ rest) (.numeralRange (String.ofList n.chars))

/-! ### What words and stuck texts start with -/

theorem not_isBlank_of_isQuote {q : Char} (h : isQuote q = true) : isBlank q = false := by
  obtain rfl | rfl := isQuote_iff.mp h <;> decide

theorem exists_cons_chars {n : Numeral} (h : n.WellFormed) (rest : List Char) :
    ∃ c cs, n.chars ++ rest = c :: cs ∧ isSymbolChar c = true := by
  have hstart := Numeral.startsNumeral_chars_append h rest
  match hcs : n.chars ++ rest with
  | [] => simp [hcs, startsNumeral] at hstart
  | c :: cs => exact ⟨c, cs, rfl, isSymbolChar_of_startsNumeral (hcs ▸ hstart)⟩

/-- A word is not empty and starts with no blank. -/
theorem Lexeme.exists_cons {t : Token} {word rest : List Char} (h : Lexeme t word rest) :
    ∃ c cs, word = c :: cs ∧ isBlank c = false := by
  cases h with
  | lparen => exact ⟨'(', [], rfl, by decide⟩
  | rparen => exact ⟨')', [], rfl, by decide⟩
  | number hn =>
    obtain ⟨c, cs, hcs, hc⟩ := exists_cons_chars hn []
    exact ⟨c, cs, by rwa [List.append_nil] at hcs, (isSymbolChar_iff.mp hc).1⟩
  | symbol hname =>
    obtain ⟨hne, hplain, -⟩ := isName_iff.mp hname
    obtain ⟨c, cs, hcs⟩ := List.exists_cons_of_ne_nil hne
    exact ⟨c, cs, hcs, (isSymbolChar_iff.mp (hplain c (hcs ▸ List.mem_cons_self))).1⟩
  | string hq => exact ⟨_, _, rfl, not_isBlank_of_isQuote hq⟩

theorem Stuck.exists_cons {cs : List Char} {fault : Fault} (h : Stuck cs fault) :
    ∃ c rest, cs = c :: rest ∧ isBlank c = false := by
  cases h with
  | openString hq | brokenEscape hq => exact ⟨_, _, rfl, not_isBlank_of_isQuote hq⟩
  | numeralRange hn =>
    obtain ⟨c, cs, hcs, hc⟩ := exists_cons_chars hn _
    exact ⟨c, cs, hcs, (isSymbolChar_iff.mp hc).1⟩

/-! ### Reading -/

theorem read_of_isQuote {q : Char} (h : isQuote q = true) (cs : List Char) :
    read (q :: cs) = readString q cs := by
  have hopen : q ≠ '(' := by
    rintro rfl
    simp [isQuote] at h
  have hclose : q ≠ ')' := by
    rintro rfl
    simp [isQuote] at h
  rw [read, if_neg hopen, if_neg hclose, if_pos h]

/-- The longest numeral is read, or refused for its value. -/
theorem read_numeral {n : Numeral} {rest : List Char} (h : n.WellFormed) (hl : n.Longest rest) :
    read (n.chars ++ rest) =
      if n.value.isFinite then .ok (.number n.value, rest)
      else .error (.numeralRange (String.ofList n.chars)) := by
  have hstart := Numeral.startsNumeral_chars_append h rest
  have hsplit := Numeral.split_of_longest h hl
  obtain ⟨c, cs, hcs, hc⟩ := exists_cons_chars h rest
  rw [hcs] at hstart hsplit ⊢
  rw [read_of_isSymbolChar hc, if_pos hstart]
  simp only [readNumber, hsplit]

/-- The longest numeral is read at its position, with the position behind it. -/
theorem readAt_of_longest {source rest : List Char} {position : Nat} {n : Numeral}
    (h : n.WellFormed) (hl : n.Longest rest) (hdrop : source.drop position = n.chars ++ rest) :
    readAt source position =
      if n.value.isFinite then .ok (.number n.value, position + n.chars.length)
      else .error (.numeralRange (String.ofList n.chars)) := by
  rw [readAt, readAtWith, hdrop, read_numeral h hl, ← (positionAfter_of_append hdrop).1]
  split <;> rfl

/-- A name is read up to its end. -/
theorem read_name {name : String} {rest : List Char} (h : IsName name) (hrest : Boundary rest) :
    read (name.toList ++ rest) = .ok (.symbol name, rest) := by
  have hstart := h.startsNumeral_append hrest
  obtain ⟨hne, hplain, -⟩ := isName_iff.mp h
  have htake := takeWhile_append_of_head? hplain hrest
  have hdrop := dropWhile_append_of_head? hplain hrest
  obtain ⟨c, cs, hn⟩ := List.exists_cons_of_ne_nil hne
  have hc : isSymbolChar c = true := hplain c (hn ▸ List.mem_cons_self)
  rw [hn, List.cons_append] at hstart htake hdrop ⊢
  rw [read_of_isSymbolChar hc, hstart]
  simp only [readSymbol, htake, hdrop, ← hn, String.ofList_toList, Bool.false_eq_true, if_false]

/-- **A word in front of a text is read as its token.** -/
theorem Lexeme.read {t : Token} {word rest : List Char} (h : Lexeme t word rest) :
    read (word ++ rest) = .ok (t, rest) := by
  cases h with
  | lparen => simp [Token.read]
  | rparen => simp [Token.read]
  | number hn hl hf => rw [read_numeral hn hl, if_pos hf]
  | symbol hname hrest => exact read_name hname hrest
  | string hq hbody =>
    rw [List.cons_append, List.append_assoc, List.singleton_append, read_of_isQuote hq, readString,
      hbody.read_closed (ne_backslash_of_isQuote hq)]

/-- **A stuck text is read as its fault.** -/
theorem Stuck.read {cs : List Char} {fault : Fault} (h : Stuck cs fault) :
    read cs = .error fault := by
  cases h with
  | openString hq hcs =>
    rw [read_of_isQuote hq, readString, hcs.read_unclosed (ne_backslash_of_isQuote hq)]
  | brokenEscape hq hbody =>
    rw [read_of_isQuote hq, readString, hbody.read_broken (ne_backslash_of_isQuote hq)]
  | numeralRange hn hl hf => rw [read_numeral hn hl, if_neg (Bool.eq_false_iff.mp hf)]

/-- What starts with a quote is a string, or a string that is never closed. -/
theorem lexeme_or_stuck_of_isQuote {q : Char} (hq : isQuote q = true) (cs : List Char) :
    (∃ t word rest, q :: cs = word ++ rest ∧ Lexeme t word rest) ∨
      ∃ fault, Stuck (q :: cs) fault := by
  match hread : StringBody.read q cs with
  | .closed value rest =>
    obtain ⟨body, rfl, hbody⟩ := StringBody.writes_of_read_closed hread
    exact .inl ⟨_, _, rest, by simp, .string hq hbody⟩
  | .unclosed =>
    obtain ⟨value, hvalue⟩ := StringBody.writes_of_read_unclosed hread
    exact .inr ⟨_, .openString hq hvalue⟩
  | .broken =>
    obtain ⟨body, value, rfl, hbody⟩ := StringBody.writes_of_read_broken hread
    exact .inr ⟨_, .brokenEscape hq hbody⟩

/-- What starts as numerals do is a number, or a numeral out of range. -/
theorem lexeme_or_stuck_of_startsNumeral {cs : List Char} (hs : startsNumeral cs = true) :
    (∃ t word rest, cs = word ++ rest ∧ Lexeme t word rest) ∨ ∃ fault, Stuck cs fault := by
  have hn := Numeral.wellFormed_split hs
  have hl := Numeral.longest_split cs
  have hcs := Numeral.chars_split cs
  cases hf : (Numeral.split cs).1.value.isFinite with
  | true => exact .inl ⟨_, _, _, hcs.symm, .number hn hl hf⟩
  | false =>
    have hstuck := Stuck.numeralRange hn hl hf
    rw [hcs] at hstuck
    exact .inr ⟨_, hstuck⟩

/-- **A text that starts with no blank starts with a word or is stuck.** -/
theorem lexeme_or_stuck {c : Char} (hc : isBlank c = false) (cs : List Char) :
    (∃ t word rest, c :: cs = word ++ rest ∧ Lexeme t word rest) ∨
      ∃ fault, Stuck (c :: cs) fault := by
  by_cases hopen : c = '('
  · exact .inl ⟨.lparen, ['('], cs, by rw [hopen, List.singleton_append], .lparen⟩
  by_cases hclose : c = ')'
  · exact .inl ⟨.rparen, [')'], cs, by rw [hclose, List.singleton_append], .rparen⟩
  by_cases hquote : isQuote c = true
  · exact lexeme_or_stuck_of_isQuote hquote cs
  by_cases hs : startsNumeral (c :: cs) = true
  · exact lexeme_or_stuck_of_startsNumeral hs
  · rw [isQuote_iff, not_or] at hquote
    have hsymbol : isSymbolChar c = true := isSymbolChar_iff.mpr ⟨hc, hopen, hclose, hquote⟩
    have hname := isName_takeWhile hsymbol (Bool.eq_false_iff.mpr hs)
    have hboundary : Boundary ((c :: cs).dropWhile isSymbolChar) :=
      fun _ => eq_false_of_head?_dropWhile
    refine .inl ⟨_, _, _, ?_, .symbol hname hboundary⟩
    rw [String.toList_ofList, List.takeWhile_append_dropWhile]

/-- What is read is written by a word at the front of the text. -/
theorem lexeme_of_read {c : Char} {cs rest : List Char} {t : Token} (hc : isBlank c = false)
    (h : read (c :: cs) = .ok (t, rest)) : ∃ word, c :: cs = word ++ rest ∧ Lexeme t word rest := by
  obtain ⟨t', word, rest', hcs, hword⟩ | ⟨fault, hstuck⟩ := lexeme_or_stuck hc cs
  · rw [hcs, hword.read] at h
    obtain ⟨rfl, rfl⟩ := Prod.mk.inj (Except.ok.inj h)
    exact ⟨word, hcs, hword⟩
  · rw [hstuck.read] at h
    simp at h

/-- A text that cannot be read is stuck. -/
theorem stuck_of_read {c : Char} {cs : List Char} {fault : Fault} (hc : isBlank c = false)
    (h : read (c :: cs) = .error fault) : Stuck (c :: cs) fault := by
  obtain ⟨t, word, rest, hcs, hword⟩ | ⟨fault', hstuck⟩ := lexeme_or_stuck hc cs
  · rw [hcs, hword.read] at h
    simp at h
  · rw [hstuck.read] at h
    obtain rfl := Except.error.inj h
    exact hstuck

/-- **A word in front of a text is the first token of its stream.** -/
theorem Lexeme.stream {t : Token} {word rest : List Char} (h : Lexeme t word rest) :
    stream (word ++ rest) = (t :: (stream rest).1, (stream rest).2) := by
  have hread := h.read
  obtain ⟨c, cs, rfl, hc⟩ := h.exists_cons
  exact stream_cons_of_read hc hread

theorem stream_lparen (cs : List Char) :
    stream ('(' :: cs) = (.lparen :: (stream cs).1, (stream cs).2) :=
  Lexeme.lparen.stream

theorem stream_rparen (cs : List Char) :
    stream (')' :: cs) = (.rparen :: (stream cs).1, (stream cs).2) :=
  Lexeme.rparen.stream

end Token

end Lisplet
