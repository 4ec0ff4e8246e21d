import Lisplet.Proofs.Token.Lexeme

/-!
# Proofs/Token/Division — how a text is divided into words

A text is blanks and words in turn, up to its end or to a place where no word starts.  `Division`
says so without a reader: each run of blanks goes on as far as it can, and each word is the longest
of its kind.  The stream of a text follows its division (`division_stream`), and there is no other
division (`Division.stream_eq`).
-/

namespace Lisplet.Token

/-- **All the blanks in front of a text.** -/
structure BlankRun (blanks cs : List Char) : Prop where
  blank : ∀ c ∈ blanks, isBlank c = true
  maximal : ∀ c, cs.head? = some c → isBlank c = false

/-- **A division of a text** into the words of tokens, with the blanks in front of each; what is
left in the end is nothing, or a text that is stuck. -/
inductive Division : List Char → List Token → List Char → Option Fault → Prop
  | finish {blanks : List Char} : BlankRun blanks [] → Division blanks [] [] none
  | stuck {blanks rest : List Char} {fault : Fault} : BlankRun blanks rest → Stuck rest fault →
      Division (blanks ++ rest) [] rest (some fault)
  | word {blanks word cs rest : List Char} {t : Token} {ts : List Token} {fault : Option Fault} :
      BlankRun blanks (word ++ cs) → Lexeme t word cs → Division cs ts rest fault →
      Division (blanks ++ (word ++ cs)) (t :: ts) rest fault

/-- What is skipped in front of a text is all its blanks there. -/
theorem exists_blankRun {cs rest : List Char} (h : skipBlanks cs = rest) :
    ∃ blanks, cs = blanks ++ rest ∧ BlankRun blanks rest := by
  subst h
  refine ⟨cs.takeWhile isBlank, List.takeWhile_append_dropWhile.symm, fun c hc => ?_, fun c hc => ?_⟩
  · exact List.all_eq_true.mp List.all_takeWhile c hc
  · exact eq_false_of_head?_dropWhile hc

/-- Blanks in front of a text are no part of its stream. -/
theorem stream_append_of_isBlank {blanks : List Char} (h : ∀ c ∈ blanks, isBlank c = true)
    (cs : List Char) : stream (blanks ++ cs) = stream cs := by
  induction blanks with
  | nil => rfl
  | cons c blanks ih =>
    obtain ⟨hc, hblanks⟩ := List.forall_mem_cons.mp h
    rw [List.cons_append, stream_cons_of_isBlank hc, ih hblanks]

theorem BlankRun.stream_append {blanks cs : List Char} (h : BlankRun blanks cs) :
    stream (blanks ++ cs) = stream cs :=
  stream_append_of_isBlank h.blank cs

/-- A stuck text has a stream of its fault alone. -/
theorem Stuck.stream {cs : List Char} {fault : Fault} (h : Stuck cs fault) :
    stream cs = ([], some fault) := by
  have hread := h.read
  obtain ⟨c, rest, rfl, hc⟩ := h.exists_cons
  have hskip : skipBlanks (c :: rest) = c :: rest := by simp [skipBlanks, hc]
  rw [stream_eq, hskip]
  simp only [hread]

/-! ## The stream and the division -/

/-- **The stream of a text follows its division.** -/
theorem division_stream (cs : List Char) :
    ∃ rest, Division cs (stream cs).1 rest (stream cs).2 := by
  fun_induction stream cs with
  | case1 cs hskip =>
    obtain ⟨blanks, rfl, hblanks⟩ := exists_blankRun hskip
    exact ⟨[], (List.append_nil blanks).symm ▸ .finish hblanks⟩
  | case2 cs c rest hskip fault hread =>
    obtain ⟨blanks, rfl, hblanks⟩ := exists_blankRun hskip
    exact ⟨c :: rest, .stuck hblanks (stuck_of_read (not_isBlank_of_skipBlanks hskip) hread)⟩
  | case3 cs c rest hskip t after hread ts fault hstream ih =>
    obtain ⟨blanks, rfl, hblanks⟩ := exists_blankRun hskip
    obtain ⟨word, hword, hlexeme⟩ := lexeme_of_read (not_isBlank_of_skipBlanks hskip) hread
    obtain ⟨left, hdivision⟩ := ih
    rw [hstream] at hdivision
    rw [hword] at hblanks ⊢
    exact ⟨left, .word hblanks hlexeme hdivision⟩

/-- A source that has tokens is divided into them. -/
theorem division_of_ofSource {source : String} {ts : List Token} (h : ofSource source = .ok ts) :
    ∃ rest, Division source.toList ts rest none := by
  obtain ⟨rest, hdivision⟩ := division_stream source.toList
  unfold ofSource at h
  split at h
  · next hstream =>
    obtain rfl := Except.ok.inj h
    rw [hstream] at hdivision
    exact ⟨rest, hdivision⟩
  · simp at h

/-- **A division of a text is what its stream follows.** -/
theorem Division.stream_eq {cs rest : List Char} {ts : List Token} {fault : Option Fault}
    (h : Division cs ts rest fault) : stream cs = (ts, fault) := by
  induction h with
  | finish hblanks =>
    have hstream := hblanks.stream_append
    rwa [List.append_nil, stream_nil] at hstream
  | stuck hblanks hstuck => rw [hblanks.stream_append, hstuck.stream]
  | word hblanks hlexeme _ ih => rw [hblanks.stream_append, hlexeme.stream, ih]

/-- Every word takes a character, so there are no more tokens than characters. -/
theorem Division.length_le {cs rest : List Char} {ts : List Token} {fault : Option Fault}
    (h : Division cs ts rest fault) : ts.length ≤ cs.length := by
  induction h with
  | finish => exact Nat.zero_le _
  | stuck => exact Nat.zero_le _
  | word _ hlexeme _ ih =>
    obtain ⟨c, cs, rfl, -⟩ := hlexeme.exists_cons
    simp only [List.length_cons, List.length_append]
    omega

theorem Stuck.kind_eq {cs : List Char} {fault : Fault} (h : Stuck cs fault) :
    fault.kind = .lexical := by
  cases h <;> rfl

/-- What is left of a division is nothing, or stuck at the fault. -/
theorem Division.rest_cases {cs rest : List Char} {ts : List Token} {fault : Option Fault}
    (h : Division cs ts rest fault) :
    (rest = [] ∧ fault = none) ∨ ∃ f, fault = some f ∧ Stuck rest f := by
  induction h with
  | finish => exact .inl ⟨rfl, rfl⟩
  | stuck _ hstuck => exact .inr ⟨_, rfl, hstuck⟩
  | word _ _ _ ih => exact ih

theorem Division.rest_eq_nil_iff {cs rest : List Char} {ts : List Token} {fault : Option Fault}
    (h : Division cs ts rest fault) : rest = [] ↔ fault = none := by
  obtain ⟨rfl, rfl⟩ | ⟨f, rfl, hstuck⟩ := h.rest_cases
  · exact ⟨fun _ => rfl, fun _ => rfl⟩
  · obtain ⟨c, cs, rfl, -⟩ := hstuck.exists_cons
    simp

theorem Lexeme.ne_finish {t : Token} {word rest : List Char} (h : Lexeme t word rest) :
    t ≠ .finish := by
  rcases h with _ | _ | _ | _ | _ <;> simp

theorem Division.finish_notMem {cs rest : List Char} {ts : List Token} {fault : Option Fault}
    (h : Division cs ts rest fault) : .finish ∉ ts := by
  induction h with
  | finish | stuck => simp
  | word _ hlexeme _ ih =>
    rw [List.mem_cons, not_or]
    exact ⟨hlexeme.ne_finish.symm, ih⟩

/-- **The end of a text is no token of it.** -/
theorem finish_notMem_of_ofSource {source : String} {ts : List Token}
    (h : ofSource source = .ok ts) : .finish ∉ ts := by
  obtain ⟨rest, hdivision⟩ := division_of_ofSource h
  exact hdivision.finish_notMem

/-- A source without tokens is at fault in its words. -/
theorem kind_of_ofSource {source : String} {fault : Fault} (h : ofSource source = .error fault) :
    fault.kind = .lexical := by
  obtain ⟨rest, hdivision⟩ := division_stream source.toList
  unfold ofSource at h
  split at h
  · simp at h
  · next hstream =>
    obtain rfl := Except.error.inj h
    rw [hstream] at hdivision
    obtain ⟨-, hnone⟩ | ⟨f, hf, hstuck⟩ := hdivision.rest_cases
    · simp at hnone
    · rw [Option.some.inj hf]
      exact hstuck.kind_eq

/-- **A text is divided by longest match.**  Its stream has no more tokens than it has characters
and follows a division of it, the only one there is; nothing of the text is left unless the stream
stops at a lexical fault, and then what is left is stuck at that fault. -/
theorem stream_divides (cs : List Char) :
    (stream cs).1.length ≤ cs.length ∧
      (∃ rest, Division cs (stream cs).1 rest (stream cs).2 ∧
        (rest = [] ↔ (stream cs).2 = none) ∧
        ∀ fault, (stream cs).2 = some fault → fault.kind = .lexical ∧ Stuck rest fault) ∧
      ∀ ts rest fault, Division cs ts rest fault → stream cs = (ts, fault) := by
  obtain ⟨rest, h⟩ := division_stream cs
  refine ⟨h.length_le, ⟨rest, h, h.rest_eq_nil_iff, fun fault hfault => ?_⟩, fun _ _ _ h => ?_⟩
  · obtain ⟨-, hnone⟩ | ⟨f, hf, hstuck⟩ := h.rest_cases
    · rw [hnone] at hfault
      simp at hfault
    · rw [hf] at hfault
      obtain rfl := Option.some.inj hfault
      exact ⟨hstuck.kind_eq, hstuck⟩
  · exact h.stream_eq

end Lisplet.Token
