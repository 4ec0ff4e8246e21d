import Lisplet.Proofs.Token.Division
import Lisplet.Proofs.Token.Spelling

/-!
# Proofs/Token/Joining — the tokens of trimmed and joined texts

A text that is divided up to its end spells its tokens whatever stands behind it
(`Token.spells_of_ofSource`), since its last word ends there.  So a blank behind it parts it from
any other text (`Token.stream_append_blank`), and texts with spaces between them have the tokens of
the one and then those of the other (`Token.ofSource_intercalate`).  No word ends in a blank, so
blanks around a text leave its tokens as they are (`Token.stream_padded_iff`).
-/

namespace Lisplet

/-! ## Words and what stands behind them -/

theorem Boundary.append {cs rest : List Char} (h : Boundary cs) (hrest : Boundary rest) :
    Boundary (cs ++ rest) := by
  cases cs with
  | nil => exact hrest
  | cons c cs => exact fun d hd => h d hd

theorem Boundary.of_append {cs rest : List Char} (h : Boundary (cs ++ rest)) : Boundary cs := by
  cases cs with
  | nil => exact fun c hc => by simp at hc
  | cons c cs => exact fun d hd => h d hd

/-- A word does not go on behind a boundary. -/
theorem Boundary.isPrefix_of_append {word cs rest : List Char} (hrest : Boundary rest)
    (hword : ∀ c ∈ word, Token.isSymbolChar c = true) (h : word <+: cs ++ rest) : word <+: cs := by
  induction cs generalizing word with
  | nil =>
    cases word with
    | nil => exact List.prefix_rfl
    | cons c word =>
      obtain ⟨more, rfl⟩ := h
      have hc := hrest c rfl
      simp [hword c List.mem_cons_self] at hc
  | cons d cs ih =>
    cases word with
    | nil => exact List.nil_prefix
    | cons c word =>
      obtain ⟨rfl, hmore⟩ := List.cons_prefix_cons.mp h
      exact List.cons_prefix_cons.mpr ⟨rfl, ih (List.forall_mem_cons.mp hword).2 hmore⟩

namespace Token

/-- A word stays one when more text follows it behind a boundary. -/
theorem Lexeme.append {t : Token} {word cs rest : List Char} (h : Lexeme t word cs)
    (hrest : Boundary rest) : Lexeme t word (cs ++ rest) := by
  cases h with
  | lparen => exact .lparen
  | rparen => exact .rparen
  | number hn hl hf =>
    refine .number hn (fun m hm hfront => hl m hm ?_) hf
    rw [← List.append_assoc] at hfront
    exact hrest.isPrefix_of_append (isSymbolChar_of_mem_chars hm) hfront
  | symbol hname hcs => exact .symbol hname (hcs.append hrest)
  | string hq hbody => exact .string hq hbody

/-- A word stays one when less text follows it. -/
theorem Lexeme.of_append {t : Token} {word cs rest : List Char} (h : Lexeme t word (cs ++ rest)) :
    Lexeme t word cs := by
  cases h with
  | lparen => exact .lparen
  | rparen => exact .rparen
  | number hn hl hf =>
    refine .number hn (fun m hm hfront => hl m hm ?_) hf
    rw [← List.append_assoc]
    exact hfront.trans (List.prefix_append _ _)
  | symbol hname hcs => exact .symbol hname hcs.of_append
  | string hq hbody => exact .string hq hbody

/-- No word ends in a blank. -/
theorem Lexeme.not_isBlank_getLast {t : Token} {word cs : List Char} (h : Lexeme t word cs)
    {c : Char} (hc : word.getLast? = some c) : isBlank c = false := by
  cases h with
  | lparen | rparen =>
    obtain rfl := Option.some.inj hc
    decide
  | number hn =>
    exact (isSymbolChar_iff.mp (isSymbolChar_of_mem_chars hn c (List.mem_of_getLast? hc))).1
  | symbol hname => exact (hname.plain c (List.mem_of_getLast? hc)).1
  | @string q body _ _ hq =>
    rw [← List.cons_append, List.getLast?_concat] at hc
    exact Option.some.inj hc ▸ not_isBlank_of_isQuote hq

/-! ## Texts that are divided up to their end -/

theorem ofSource_eq_ok_iff {source : String} {ts : List Token} :
    ofSource source = .ok ts ↔ stream source.toList = (ts, none) := by
  unfold ofSource
  split
  · next h => simp [h]
  · next h => simp [h]

/-- **A text that is divided up to its end spells its tokens.** -/
theorem Division.spells {cs left : List Char} {ts : List Token} (h : Division cs ts left none) :
    Spells cs ts := by
  intro rest hrest
  generalize hnone : (none : Option Fault) = fault at h
  induction h with
  | finish hblanks => rw [stream_append_of_isBlank hblanks.blank, List.nil_append]
  | stuck => simp at hnone
  | word hblanks hlexeme _ ih =>
    rw [List.append_assoc, stream_append_of_isBlank hblanks.blank, List.append_assoc,
      (hlexeme.append hrest).stream, ih hnone, List.cons_append]

theorem spells_of_ofSource {source : String} {ts : List Token} (h : ofSource source = .ok ts) :
    Spells source.toList ts := by
  obtain ⟨left, hdivision⟩ := division_of_ofSource h
  exact hdivision.spells

/-- **A blank ends the text in front of it**: the stream goes on behind it, to whatever end it comes
there. -/
theorem stream_append_blank {a : String} {ts : List Token} (ha : ofSource a = .ok ts) {w : Char}
    (hw : isBlank w = true) (b : List Char) :
    stream (a.toList ++ w :: b) = (ts ++ (stream b).1, (stream b).2) := by
  rw [spells_of_ofSource ha _ (boundary_of_isBlank hw b), stream_cons_of_isBlank hw]

/-- A source is divided as its stream goes on. -/
theorem ofSource_of_stream {source b : String} {ts : List Token}
    (h : stream source.toList = (ts ++ (stream b.toList).1, (stream b.toList).2)) :
    ofSource source = (ofSource b).map (ts ++ ·) := by
  rw [ofSource, ofSource, h]
  rcases stream b.toList with ⟨ts', _ | fault⟩ <;> rfl

/-- **Texts with a space between them have the tokens of both.** -/
theorem ofSource_join {a b : String} {ts ts' : List Token} (ha : ofSource a = .ok ts)
    (hb : ofSource b = .ok ts') : ofSource (a ++ " " ++ b) = .ok (ts ++ ts') := by
  have hspace : (a ++ " " ++ b).toList = a.toList ++ ' ' :: b.toList := by
    simp [String.toList_append]
  have hstream := stream_append_blank ha (w := ' ') rfl b.toList
  rw [← hspace] at hstream
  rw [ofSource_of_stream hstream, hb]
  rfl

/-- **Lines with spaces between them have the tokens of all.** -/
theorem ofSource_intercalate {lines : List String} {tss : List (List Token)}
    (h : List.Forall₂ (fun line ts => ofSource line = .ok ts) lines tss) :
    ofSource (" ".intercalate lines) = .ok tss.flatten := by
  have hspells : List.Forall₂ Spells (lines.map String.toList) tss :=
    List.forall₂_map_left_iff.mpr (h.imp fun _ _ => spells_of_ofSource)
  refine Spells.ofSource ?_
  rw [String.toList_intercalate]
  exact spells_intercalate hspells

/-! ## Trimmed texts -/

/-- Blanks at the end of a text are no part of its stream. -/
theorem Division.stream_of_append_blanks {cs blanks left : List Char} {ts : List Token}
    (hblanks : ∀ c ∈ blanks, isBlank c = true) (h : Division (cs ++ blanks) ts left none) :
    stream cs = (ts, none) := by
  generalize hwhole : cs ++ blanks = whole at h
  generalize hnone : (none : Option Fault) = fault at h
  induction h generalizing cs with
  | finish hrun =>
    have hcs : ∀ c ∈ cs, isBlank c = true := fun c hc =>
      hrun.blank c (hwhole ▸ List.mem_append_left _ hc)
    rw [← hnone, ← stream_nil, ← stream_append_of_isBlank hcs [], List.append_nil]
  | stuck => simp at hnone
  | @word front word after rest t ts fault hrun hlexeme _ ih =>
    -- The word ends in no blank, so it ends before the blanks do.
    obtain ⟨cs', rfl, rfl⟩ : ∃ cs', cs = front ++ (word ++ cs') ∧ after = cs' ++ blanks := by
      rw [← List.append_assoc, List.append_eq_append_iff] at hwhole
      obtain ⟨excess, hexcess, hblank⟩ | ⟨cs', hcs, hafter⟩ := hwhole
      · obtain rfl | ⟨excess, c, rfl⟩ := List.eq_nil_or_concat' excess
        · exact ⟨[], by simpa using hexcess.symm, by simpa using hblank.symm⟩
        · have hlast : word.getLast? = some c := by
            obtain ⟨d, ds, hd, -⟩ := hlexeme.exists_cons
            have hconcat := congrArg List.getLast? hexcess
            rw [← List.append_assoc, List.getLast?_concat,
              List.getLast?_append_of_ne_nil _ (hd ▸ List.cons_ne_nil d ds)] at hconcat
            exact hconcat
          have hc := hblanks c (by simp [hblank])
          simp [hlexeme.not_isBlank_getLast hlast] at hc
      · exact ⟨cs', by rw [hcs, List.append_assoc], hafter⟩
    rw [stream_append_of_isBlank hrun.blank, hlexeme.of_append.stream, ih rfl hnone]

/-- A text is what is left when its end is trimmed, and blanks. -/
theorem exists_trailing_blanks (cs : List Char) :
    ∃ blanks, (∀ c ∈ blanks, isBlank c = true) ∧ cs = dropTrailingBlanks cs ++ blanks := by
  refine ⟨(cs.reverse.takeWhile isBlank).reverse, fun c hc => ?_, ?_⟩
  · exact List.all_eq_true.mp List.all_takeWhile c (List.mem_reverse.mp hc)
  · rw [dropTrailingBlanks, ← List.reverse_append, List.takeWhile_append_dropWhile,
      List.reverse_reverse]

/-- A text of blanks has no tokens. -/
theorem stream_of_isBlank {blanks : List Char} (h : ∀ c ∈ blanks, isBlank c = true) :
    stream blanks = ([], none) := by
  rw [← List.append_nil blanks, stream_append_of_isBlank h, stream_nil]

/-- **Blanks around a text change no token.** -/
theorem stream_padded_iff {front back : List Char} (hfront : ∀ c ∈ front, isBlank c = true)
    (hback : ∀ c ∈ back, isBlank c = true) (cs : List Char) (ts : List Token) :
    stream (front ++ (cs ++ back)) = (ts, none) ↔ stream cs = (ts, none) := by
  rw [stream_append_of_isBlank hfront]
  constructor
  · intro h
    obtain ⟨left, hdivision⟩ := division_stream (cs ++ back)
    rw [h] at hdivision
    exact hdivision.stream_of_append_blanks hback
  · intro h
    obtain ⟨left, hdivision⟩ := division_stream cs
    rw [h] at hdivision
    rcases back with - | ⟨w, back⟩
    · rwa [List.append_nil]
    · have hw := hback w List.mem_cons_self
      rw [hdivision.spells _ (boundary_of_isBlank hw back), stream_of_isBlank hback,
        List.append_nil]

/-- **Trimming the end of a text keeps its tokens.** -/
theorem ofSource_trimEnd {line : String} {ts : List Token} (h : ofSource line = .ok ts) :
    ofSource (trimEnd line) = .ok ts := by
  obtain ⟨blanks, hblanks, hline⟩ := exists_trailing_blanks line.toList
  rw [ofSource_eq_ok_iff, hline] at h
  rw [ofSource_eq_ok_iff, trimEnd, String.toList_ofList]
  exact (stream_padded_iff (List.forall_mem_nil _) hblanks _ _).mp h

/-- **So does trimming it at both ends.** -/
theorem ofSource_trim {line : String} {ts : List Token} (h : ofSource line = .ok ts) :
    ofSource (trim line) = .ok ts := by
  obtain ⟨back, hback, hline⟩ := exists_trailing_blanks line.toList
  obtain ⟨front, hcs, hfront⟩ :=
    exists_blankRun (rfl : skipBlanks (dropTrailingBlanks line.toList) = _)
  rw [ofSource_eq_ok_iff, hline, hcs, List.append_assoc] at h
  rw [ofSource_eq_ok_iff, trim, String.toList_ofList]
  exact (stream_padded_iff hfront.blank hback _ _).mp h

/-! ## Blanks between texts and around them -/

/-- **Texts are divided apart at blanks.**  Behind a source that has tokens and a blank, any text
goes on as it would on its own, up to the same fault if it comes to one.  So sources with spaces
between them have the tokens of all, trimmed or not, and blanks at either end of a source change no
token of it. -/
theorem blanks_separate :
    (∀ (a : String) (ts : List Token), ofSource a = .ok ts → ∀ w : Char, isBlank w = true →
      ∀ b : String,
        stream (a.toList ++ w :: b.toList) = (ts ++ (stream b.toList).1, (stream b.toList).2) ∧
          ofSource (a ++ String.singleton w ++ b) = (ofSource b).map (ts ++ ·)) ∧
    (∀ (lines : List String) (tss : List (List Token)),
      List.Forall₂ (fun line ts => ofSource line = .ok ts) lines tss →
        ofSource (" ".intercalate lines) = .ok tss.flatten ∧
          ofSource (" ".intercalate (lines.map trimEnd)) = .ok tss.flatten) ∧
    (∀ front line back : String, (∀ c ∈ front.toList, isBlank c = true) →
      (∀ c ∈ back.toList, isBlank c = true) → ∀ ts : List Token,
        ofSource (front ++ line ++ back) = .ok ts ↔ ofSource line = .ok ts) ∧
    ∀ (line : String) (ts : List Token), ofSource line = .ok ts →
      ofSource (trimEnd line) = .ok ts ∧ ofSource (trim line) = .ok ts := by
  refine ⟨?_, ?_, ?_, ?_⟩
  · intro a ts ha w hw b
    have hstream := stream_append_blank ha hw b.toList
    refine ⟨hstream, ofSource_of_stream ?_⟩
    have hjoined : (a ++ String.singleton w ++ b).toList = a.toList ++ w :: b.toList := by
      simp [String.toList_append]
    rw [hjoined, hstream]
  · intro lines tss h
    refine ⟨ofSource_intercalate h, ofSource_intercalate ?_⟩
    exact List.forall₂_map_left_iff.mpr (h.imp fun _ _ => ofSource_trimEnd)
  · intro front line back hfront hback ts
    rw [ofSource_eq_ok_iff, ofSource_eq_ok_iff, String.toList_append, String.toList_append,
      List.append_assoc]
    exact stream_padded_iff hfront hback line.toList ts
  · intro line ts h
    exact ⟨ofSource_trimEnd h, ofSource_trim h⟩

/-- Behind `(f -` and a tab, `x) 'y` is divided as on its own, although `-x` would be one word; so
are the lines `(f -` and `x) `, and the second of them without its blank. -/
theorem blanks_separate_tab :
    ofSource "(f -" = .ok [.lparen, .symbol "f", .symbol "-"] ∧
      stream "(f -\tx) 'y".toList =
        ([.lparen, .symbol "f", .symbol "-", .symbol "x", .rparen], some (.openString "'y")) ∧
      ofSource "(f - x) " = .ok [.lparen, .symbol "f", .symbol "-", .symbol "x", .rparen] ∧
      ofSource "x)" = .ok [.symbol "x", .rparen] ∧
      ofSource (trimEnd "x) ") = .ok [.symbol "x", .rparen] := by
  have hfirst : ofSource "(f -" = .ok [.lparen, .symbol "f", .symbol "-"] := by cbv
  have hopen : stream "x) 'y".toList = ([.symbol "x", .rparen], some (.openString "'y")) := by cbv
  have hlast : ofSource "x) " = .ok [.symbol "x", .rparen] := by cbv
  have hstream := (blanks_separate.1 "(f -" _ hfirst '\t' rfl "x) 'y").1
  rw [hopen] at hstream
  have hjoined := (blanks_separate.2.1 ["(f -", "x) "] _ (.cons hfirst (.cons hlast .nil))).1
  have hnone : ∀ c ∈ "".toList, isBlank c = true := List.forall_mem_nil _
  have hspace : ∀ c ∈ " ".toList, isBlank c = true := List.forall_mem_singleton.mpr rfl
  refine ⟨hfirst, hstream, hjoined, ?_, (blanks_separate.2.2.2 _ _ hlast).1⟩
  exact (blanks_separate.2.2.1 "" "x)" " " hnone hspace _).mp hlast

end Token

end Lisplet
