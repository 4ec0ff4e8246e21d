import Lisplet.Proofs.Token.Spelling
import Lisplet.Token.Position

/-!
# Proofs/Token/StringUnit — a string taken apart into its units

The text behind an opening quote is a row of units up to one of three ends: the closing quote, the
end of the text, or a last backslash.  There is one way to take it apart and no other
(`StringSplit.unique`), and the reader at the quote answers by it
(`Token.readStringAt?_eq_answer`).  Any value can be written: with a backslash in front of each
backslash and each quote it is read back (`spells_inQuotes`).
-/

namespace Lisplet

/-! ## Units -/

/-- **A unit of a string**: the piece of text that one character of its value is written by. -/
inductive StringUnit where
  /-- A character that stands for itself. -/
  | plain (c : Char)
  /-- A backslash and the character that it takes along. -/
  | escaped (c : Char)
deriving DecidableEq, Repr

namespace StringUnit

/-- The text of a unit. -/
def chars : StringUnit → List Char
  | .plain c => [c]
  | .escaped c => ['\\', c]

/-- The character that a unit stands for. -/
def value : StringUnit → Char
  | .plain c => c
  | .escaped c => escapeValue c

/-- Whether a unit may stand between quotes `q`: neither the quote nor a backslash stands for
itself, and a backslash takes any character along. -/
def Fits (q : Char) : StringUnit → Prop
  | .plain c => c ≠ q ∧ c ≠ '\\'
  | .escaped _ => True

instance (q : Char) : DecidablePred (Fits q)
  | .plain c => inferInstanceAs (Decidable (c ≠ q ∧ c ≠ '\\'))
  | .escaped _ => inferInstanceAs (Decidable True)

/-- Units that fit write their values. -/
theorem writes_of_fits {q : Char} {units : List StringUnit} (h : ∀ u ∈ units, u.Fits q) :
    StringBody.Writes q (units.flatMap chars) (units.map value) := by
  induction units with
  | nil => exact .nil
  | cons u units ih =>
    obtain ⟨hu, hunits⟩ := List.forall_mem_cons.mp h
    rcases u with c | c
    · exact .plain hu.1 hu.2 (ih hunits)
    · exact .escaped (ih hunits)

/-- Whatever writes a value is a row of units that fit. -/
theorem exists_of_writes {q : Char} {cs v : List Char} (h : StringBody.Writes q cs v) :
    ∃ units : List StringUnit, (∀ u ∈ units, u.Fits q) ∧ cs = units.flatMap chars ∧
      v = units.map value := by
  induction h with
  | nil => exact ⟨[], by simp, rfl, rfl⟩
  | @plain c _ _ hc hb _ ih =>
    obtain ⟨units, hfits, rfl, rfl⟩ := ih
    exact ⟨.plain c :: units, List.forall_mem_cons.mpr ⟨⟨hc, hb⟩, hfits⟩, rfl, rfl⟩
  | @escaped c _ _ _ ih =>
    obtain ⟨units, hfits, rfl, rfl⟩ := ih
    exact ⟨.escaped c :: units, List.forall_mem_cons.mpr ⟨trivial, hfits⟩, rfl, rfl⟩

end StringUnit

/-! ## Taking a text apart -/

/-- **How the units of a string end.** -/
inductive StringEnd where
  /-- With the closing quote, and more text behind it. -/
  | closed (rest : List Char)
  /-- With the text. -/
  | unclosed
  /-- With a last backslash, which has nothing to take along. -/
  | broken
deriving DecidableEq, Repr

/-- The text from an end on. -/
def StringEnd.chars (q : Char) : StringEnd → List Char
  | .closed rest => q :: rest
  | .unclosed => []
  | .broken => ['\\']

/-- **A text behind an opening quote, taken apart**: it is units that may stand between the quotes,
and an end. -/
structure StringSplit (q : Char) (cs : List Char) (units : List StringUnit) (stop : StringEnd) :
    Prop where
  fits : ∀ u ∈ units, u.Fits q
  chars : cs = units.flatMap StringUnit.chars ++ stop.chars q

namespace StringSplit

variable {q : Char} {cs : List Char} {units units' : List StringUnit} {stop stop' : StringEnd}

/-- What is left of a text behind its first unit is taken apart by the other units. -/
theorem tail {u : StringUnit} (h : StringSplit q (u.chars ++ cs) (u :: units) stop) :
    StringSplit q cs units stop where
  fits := (List.forall_mem_cons.mp h.fits).2
  chars := by
    have hchars := h.chars
    rwa [List.flatMap_cons, List.append_assoc, List.append_right_inj] at hchars

/-- Two units that stand at one place are the same unit. -/
theorem head_unique {u u' : StringUnit} {rest rest' : List Char} (hu : u.Fits q) (hu' : u'.Fits q)
    (h : u.chars ++ rest = u'.chars ++ rest') : u = u' := by
  rcases u with c | c <;> rcases u' with d | d <;>
    simp only [StringUnit.chars, List.cons_append, List.nil_append, List.cons.injEq] at h
  · exact congrArg _ h.1
  · exact absurd h.1 hu.2
  · exact absurd h.1.symm hu'.2
  · exact congrArg _ h.2.1

/-- No unit stands where a string ends. -/
theorem chars_ne_of_fits {u : StringUnit} (hq : q ≠ '\\') (hu : u.Fits q) (rest : List Char)
    (stop : StringEnd) : u.chars ++ rest ≠ stop.chars q := by
  rcases u with c | c <;> rcases stop with more | - | - <;>
    simp only [StringUnit.chars, StringEnd.chars, List.cons_append, List.nil_append, ne_eq,
      List.cons.injEq, reduceCtorEq, not_false_eq_true, not_and, and_false]
  · exact fun h => absurd h hu.1
  · exact fun h => absurd h hu.2
  · exact fun h => absurd h.symm hq

/-- Of two ends at one place each is the other. -/
theorem end_unique (hq : q ≠ '\\') (h : stop.chars q = stop'.chars q) : stop = stop' := by
  rcases stop with rest | - | - <;> rcases stop' with rest' | - | - <;>
    simp_all [StringEnd.chars, hq.symm]

/-- **A text is taken apart in one way only.** -/
theorem unique (hq : q ≠ '\\') (h : StringSplit q cs units stop)
    (h' : StringSplit q cs units' stop') : units = units' ∧ stop = stop' := by
  induction units generalizing cs units' with
  | nil =>
    rcases units' with - | ⟨u', units'⟩
    · exact ⟨rfl, end_unique hq (h.chars.symm.trans h'.chars)⟩
    · have hends := h.chars.symm.trans h'.chars
      rw [List.flatMap_cons, List.append_assoc] at hends
      exact absurd hends.symm (chars_ne_of_fits hq (h'.fits u' List.mem_cons_self) _ _)
  | cons u units ih =>
    have hu := h.fits u List.mem_cons_self
    obtain rfl := h.chars
    rcases units' with - | ⟨u', units'⟩
    · have hends := h'.chars
      rw [List.flatMap_cons, List.append_assoc] at hends
      exact absurd hends (chars_ne_of_fits hq hu _ _)
    · have hheads := h'.chars
      rw [List.flatMap_cons, List.append_assoc, List.flatMap_cons, List.append_assoc] at hheads
      obtain rfl := head_unique hu (h'.fits u' List.mem_cons_self) hheads
      rw [List.flatMap_cons, List.append_assoc] at h h'
      obtain ⟨rfl, rfl⟩ := ih h.tail h'.tail
      exact ⟨rfl, rfl⟩

end StringSplit

/-! ## Reading -/

/-- What is read behind an opening quote when the text there is taken apart. -/
def StringEnd.body (units : List StringUnit) : StringEnd → StringBody
  | .closed rest => .closed (units.map StringUnit.value) rest
  | .unclosed => .unclosed
  | .broken => .broken

/-- **A text taken apart is read unit by unit.** -/
theorem StringSplit.read {q : Char} {cs : List Char} {units : List StringUnit} {stop : StringEnd}
    (hq : q ≠ '\\') (h : StringSplit q cs units stop) :
    StringBody.read q cs = stop.body units := by
  have hwrites := StringUnit.writes_of_fits h.fits
  rw [h.chars]
  rcases stop with rest | - | -
  · exact hwrites.read_closed hq rest
  · rw [StringEnd.chars, List.append_nil]
    exact hwrites.read_unclosed hq
  · exact hwrites.read_broken hq

/-- **Every text behind a quote can be taken apart.** -/
theorem exists_stringSplit (q : Char) (cs : List Char) :
    ∃ units stop, StringSplit q cs units stop := by
  match hread : StringBody.read q cs with
  | .closed value rest =>
    obtain ⟨body, rfl, hbody⟩ := StringBody.writes_of_read_closed hread
    obtain ⟨units, hfits, rfl, -⟩ := StringUnit.exists_of_writes hbody
    exact ⟨units, .closed rest, hfits, rfl⟩
  | .unclosed =>
    obtain ⟨value, hcs⟩ := StringBody.writes_of_read_unclosed hread
    obtain ⟨units, hfits, rfl, -⟩ := StringUnit.exists_of_writes hcs
    exact ⟨units, .unclosed, hfits, (List.append_nil _).symm⟩
  | .broken =>
    obtain ⟨body, value, rfl, hbody⟩ := StringBody.writes_of_read_broken hread
    obtain ⟨units, hfits, rfl, -⟩ := StringUnit.exists_of_writes hbody
    exact ⟨units, .broken, hfits, rfl⟩

/-- **The answer at an opening quote** to the text behind it: the string of the values and the
position behind the closing quote, or a fault that shows the text from the opening quote on. -/
def StringEnd.answer (source : List Char) (position : Nat) (units : List StringUnit) :
    StringEnd → Except Fault (Token × Nat)
  | .closed _ =>
    .ok (.string (String.ofList (units.map StringUnit.value)),
      position + 1 + (units.flatMap StringUnit.chars).length + 1)
  | .unclosed => .error (.openString (String.ofList (source.drop position)))
  | .broken => .error (.brokenEscape (String.ofList (source.drop position)))

namespace Token

section At

variable {source : List Char} {position : Nat} {q : Char} (hat : source[position]? = some q)

include hat

/-- The closing quote stands behind the opening quote and the units. -/
theorem positionAfter_of_closed {units : List StringUnit} {rest : List Char}
    (h : StringSplit q (source.drop (position + 1)) units (.closed rest)) :
    positionAfter source position rest =
      position + 1 + (units.flatMap StringUnit.chars).length + 1 := by
  have hlength := congrArg List.length h.chars
  simp only [StringEnd.chars, List.length_append, List.length_cons] at hlength
  rw [positionAfter, drop_of_getElem? hat, List.length_cons, hlength]
  omega

/-- **The reader at a quote answers by the way the text behind it is taken apart.** -/
theorem readStringAt?_eq_answer (hq : q ≠ '\\') {units : List StringUnit} {stop : StringEnd}
    (h : StringSplit q (source.drop (position + 1)) units stop) :
    readStringAt? source position = some (stop.answer source position units) := by
  have hread : readStringAt? source position =
      some ((readString q (source.drop (position + 1))).map fun word =>
        (word.1, positionAfter source position word.2)) := by
    simp only [readStringAt?, readAtWith, drop_of_getElem? hat, List.tail_cons]
  rw [hread, readString, h.read hq]
  rcases stop with rest | - | -
  · rw [StringEnd.answer, ← positionAfter_of_closed hat h]
    rfl
  · rw [StringEnd.answer, drop_of_getElem? hat]
    rfl
  · rw [StringEnd.answer, drop_of_getElem? hat]
    rfl

end At

end Token

/-! ## Writing -/

/-- A character as it is written between quotes `q`: with a backslash in front if it is a backslash
or the quote. -/
def escapeFor (q c : Char) : List Char := if c = '\\' ∨ c = q then ['\\', c] else [c]

/-- **A text between two quotes** that has it for its value. -/
def inQuotes (q : Char) (value : String) : String :=
  String.ofList (q :: (value.toList.flatMap (escapeFor q) ++ [q]))

/-- Neither a backslash nor a quote stands for anything else. -/
theorem escapeValue_eq_self {c : Char} (h : c = '\\' ∨ isQuote c = true) : escapeValue c = c := by
  rw [isQuote_iff] at h
  obtain rfl | rfl | rfl := h <;> rfl

theorem writes_escapeFor {q : Char} (hq : isQuote q = true) (value : List Char) :
    StringBody.Writes q (value.flatMap (escapeFor q)) value := by
  induction value with
  | nil => exact .nil
  | cons c value ih =>
    rw [List.flatMap_cons, escapeFor]
    split
    · next hc =>
      have hself : escapeValue c = c := escapeValue_eq_self (hc.imp_right fun heq => by rwa [heq])
      have hwrites := StringBody.Writes.escaped (c := c) ih
      rwa [hself] at hwrites
    · next hc =>
      obtain ⟨hb, hne⟩ := not_or.mp hc
      exact .plain hne hb ih

theorem spells_inQuotes {q : Char} (hq : isQuote q = true) (value : String) :
    Spells (inQuotes q value).toList [.string value] := by
  intro rest _
  have hword : Token.Lexeme _ _ rest := .string hq (writes_escapeFor hq value.toList)
  rw [String.ofList_toList] at hword
  rw [inQuotes, String.toList_ofList, hword.stream, List.singleton_append]

/-! ## Strings, read and written -/

/-- **Strings are read exactly, and every failure has its reason.**  The text behind an opening
quote is taken apart into units and one of three ends in exactly one way, and the reader at the
quote answers by it: a string of the units' values and the position behind the closing quote, or a
fault for a string that is never closed, or one for a string that ends in a lone backslash.  So any
value between two quotes, with a backslash in front of each backslash and each of these quotes, is
the one token that a text has. -/
theorem strings_divide :
    (∀ (source : List Char) (position : Nat) (q : Char), q = '"' ∨ q = '\'' →
      source[position]? = some q → ∃ units stop,
        StringSplit q (source.drop (position + 1)) units stop ∧
        (∀ units' stop', StringSplit q (source.drop (position + 1)) units' stop' →
          units' = units ∧ stop' = stop) ∧
        Token.readStringAt? source position = some (stop.answer source position units)) ∧
    (∀ text : String,
      (Fault.openString text).kind = .lexical ∧
        (Fault.openString text).message.text = "unterminated string literal " ++ text ∧
      (Fault.brokenEscape text).kind = .lexical ∧
        (Fault.brokenEscape text).message.text = "unterminated escape sequence in " ++ text) ∧
    ∀ (value : String) (q : Char), q = '"' ∨ q = '\'' →
      Token.ofSource (inQuotes q value) = .ok [.string value] := by
  refine ⟨?_, ?_, ?_⟩
  · intro source position q hq hat
    have hne := ne_backslash_of_isQuote (isQuote_iff.mpr hq)
    obtain ⟨units, stop, hsplit⟩ := exists_stringSplit q (source.drop (position + 1))
    refine ⟨units, stop, hsplit, ?_, Token.readStringAt?_eq_answer hat hne hsplit⟩
    intro units' stop' hsplit'
    exact hsplit'.unique hne hsplit
  · intro text
    simp [Fault.kind, Fault.message, Message.text, Message.render, String.join]
  · intro value q hq
    exact (spells_inQuotes (isQuote_iff.mpr hq) value).ofSource

/-- In the text `('a\n\t\r\q\'\\' "b\` a string with escapes of every sort is closed behind a quote
and a backslash of its own, and one breaks off; what `inQuotes` makes of a value is read back. -/
theorem strings_divide_mixed :
    Token.readStringAt? "('a\\n\\t\\r\\q\\'\\\\' \"b\\".toList 1 =
        some (.ok (.string "a\n\t\rq'\\", 16)) ∧
      Token.readStringAt? "('a\\n\\t\\r\\q\\'\\\\' \"b\\".toList 17 =
        some (.error (.brokenEscape "\"b\\")) ∧
      (Fault.brokenEscape "\"b\\").message.text = "unterminated escape sequence in \"b\\" ∧
      Token.ofSource "'it\\'s\\\\'" = .ok [.string "it's\\"] := by
  refine ⟨?_, ?_, (strings_divide.2.1 _).2.2.2, ?_⟩
  · obtain ⟨units, stop, -, hunique, hanswer⟩ :=
      strings_divide.1 "('a\\n\\t\\r\\q\\'\\\\' \"b\\".toList 1 '\'' (.inr rfl) rfl
    obtain ⟨rfl, rfl⟩ := hunique
      [.plain 'a', .escaped 'n', .escaped 't', .escaped 'r', .escaped 'q', .escaped '\'',
        .escaped '\\'] (.closed [' ', '"', 'b', '\\']) ⟨by decide, rfl⟩
    exact hanswer
  · obtain ⟨units, stop, -, hunique, hanswer⟩ :=
      strings_divide.1 "('a\\n\\t\\r\\q\\'\\\\' \"b\\".toList 17 '"' (.inl rfl) rfl
    obtain ⟨rfl, rfl⟩ := hunique [.plain 'b'] .broken ⟨by decide, rfl⟩
    exact hanswer
  · exact strings_divide.2.2 "it's\\" '\'' (.inr rfl)

end Lisplet
