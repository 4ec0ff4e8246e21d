import Lisplet.Proofs.Double.Written
import Lisplet.Proofs.Expr.Equality
import Lisplet.Proofs.Expr.Readable
import Lisplet.Proofs.Token.Spelling

/-!
# Proofs/Expr/RoundTrip — writing an expression and reading it again

The source form of a readable expression is divided into the tokens of an equal expression
(`exists_spelling_source`), so it reads back as that one: `ofSource_source`.  Equality puts the two
zeros together, which the source form does not tell apart; with the sign of zero written out every
readable expression is read from some text (`readable_iff_exists_ofSource`).
-/

namespace Lisplet.Expr

/-- A choice for every element of a row is a row. -/
theorem exists_forall₂ {α β : Type} {R : α → β → Prop} {ys : List β} (h : ∀ y ∈ ys, ∃ x, R x y) :
    ∃ xs, List.Forall₂ R xs ys := by
  induction ys with
  | nil => exact ⟨[], .nil⟩
  | cons y ys ih =>
    obtain ⟨x, hx⟩ := h y List.mem_cons_self
    obtain ⟨xs, hxs⟩ := ih fun y' h' => h y' (List.mem_cons_of_mem y h')
    exact ⟨x :: xs, .cons hx hxs⟩

theorem toList_source_list (es : List Expr) : (source (.list es)).toList =
    '(' :: List.intercalate [' '] (es.map fun e => e.source.toList) ++ [')'] := by
  simp [source, String.toList_intercalate, Function.comp_def]

/-! ## The source form -/

/-- **The source form of a readable expression is divided into the tokens of an equal one.** -/
theorem exists_spelling_source {e : Expr} (he : e.Readable) :
    ∃ e', e'.Readable ∧ Spells e.source.toList e'.tokens ∧ beq e' e = true := by
  induction he with
  | @number x hx =>
    obtain ⟨n, hn, htext, hfinite, hvalue⟩ := Double.exists_numeral_numberText hx
    refine ⟨.number n.value, .number hfinite, ?_, hvalue⟩
    rw [source, htext]
    exact spells_numeral hn hfinite
  | @symbol name hname =>
    exact ⟨.symbol name, .symbol hname, spells_name hname, beq_self_eq_true name⟩
  | @list es _ ih =>
    obtain ⟨es', hes'⟩ := exists_forall₂ ih
    obtain ⟨hread, hes'⟩ := (List.forall₂_and_left _ _).mp hes'
    have hspell : List.Forall₂ Spells (es.map fun e => e.source.toList) (es'.map tokens) :=
      List.forall₂_map_left_iff.mpr <| List.forall₂_map_right_iff.mpr <|
        List.Forall₂.flip (hes'.imp fun _ _ h => h.1)
    refine ⟨.list es', .list hread, ?_, beqList_iff_forall₂.mpr (hes'.imp fun _ _ h => h.2)⟩
    rw [toList_source_list, tokens, tokensAll_eq_flatten]
    exact spells_list hspell

/-- A text that spells the tokens of a readable expression reads as that expression. -/
theorem ofSource_of_spells {source : String} {e : Expr} (he : e.Readable)
    (h : Spells source.toList e.tokens) : ofSource source = .ok e := by
  rw [ofSource, h.ofSource]
  exact ofTokens_tokens he.isSyntax

/-- The source form of a readable expression reads back as an equal one. -/
theorem exists_ofSource_source {e : Expr} (he : e.Readable) :
    ∃ e', ofSource e.source = .ok e' ∧ (e' == e) = true := by
  obtain ⟨e', he', hspell, heq⟩ := exists_spelling_source he
  exact ⟨e', ofSource_of_spells he' hspell, heq⟩

/-- **Writing and reading**: every readable expression is written so that it reads back as an equal
one, and whatever a text reads as is readable, hence written so as well. -/
theorem ofSource_source :
    (∀ e : Expr, e.Readable → ∃ e', ofSource e.source = .ok e' ∧ (e' == e) = true) ∧
      ∀ (text : String) (e : Expr), ofSource text = .ok e →
        e.Readable ∧ ∃ e', ofSource e.source = .ok e' ∧ (e' == e) = true :=
  ⟨fun _ he => exists_ofSource_source he, fun _ _ h =>
    ⟨readable_of_ofSource h, exists_ofSource_source (readable_of_ofSource h)⟩⟩

/-- The list `(add (1.5 -x) ())` is written and read. -/
theorem ofSource_source_nested :
    ∃ e', ofSource (list [symbol "add", list [number 1.5, symbol "-x"], list []]).source = .ok e' ∧
      (e' == list [symbol "add", list [number 1.5, symbol "-x"], list []]) = true ∧
        e'.Readable := by
  have hx : (number 1.5).Readable := .number (by decide +kernel)
  have hadd : (symbol "add").Readable := .symbol (by decide)
  have hminus : (symbol "-x").Readable := .symbol (by decide)
  have hinner : (list [number 1.5, symbol "-x"]).Readable := .list (by simp [hx, hminus])
  have hempty : (list []).Readable := .list (by simp)
  have htree : (list [symbol "add", list [number 1.5, symbol "-x"], list []]).Readable :=
    .list (by simp [hadd, hinner, hempty])
  obtain ⟨e', hread, heq⟩ := ofSource_source.1 _ htree
  exact ⟨e', hread, heq, (ofSource_source.2 _ e' hread).1⟩

/-! ## Every readable expression is read from some text -/

theorem exists_spelling {e : Expr} (he : e.Readable) : ∃ cs, Spells cs e.tokens := by
  induction he with
  | number hx =>
    obtain ⟨n, hn, rfl⟩ := Double.exists_numeral hx
    exact ⟨n.chars, spells_numeral hn hx⟩
  | @symbol name hname => exact ⟨name.toList, spells_name hname⟩
  | @list es _ ih =>
    obtain ⟨css, hcss⟩ := exists_forall₂ ih
    rw [tokens, tokensAll_eq_flatten]
    exact ⟨_, spells_list (List.forall₂_map_right_iff.mpr hcss)⟩

/-- **The readable expressions are exactly those that texts read as.** -/
theorem readable_iff_exists_ofSource {e : Expr} :
    e.Readable ↔ ∃ text, ofSource text = .ok e := by
  constructor
  · intro he
    obtain ⟨cs, hcs⟩ := exists_spelling he
    exact ⟨String.ofList cs, ofSource_of_spells he (by rwa [String.toList_ofList])⟩
  · rintro ⟨text, h⟩
    exact readable_of_ofSource h

end Lisplet.Expr
