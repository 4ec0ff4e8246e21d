import Lisplet.Proofs.Token.Lexeme
import Mathlib.Data.List.Forall2

/-!
# Proofs/Token/Spelling — texts that are divided into given tokens

`Spells cs ts` says that the text `cs` is divided into the tokens `ts` whatever stands behind it, as
long as no word goes on there.  Numerals and names spell one token each, and spellings put together
with blanks between them spell their tokens in order.
-/

namespace Lisplet

/-! ## Spelling -/

/-- **A text that is divided into given tokens**, whatever stands behind it, as long as no word
goes on there. -/
def Spells (cs : List Char) (ts : List Token) : Prop :=
  ∀ rest, Boundary rest →
    Token.stream (cs ++ rest) = (ts ++ (Token.stream rest).1, (Token.stream rest).2)

/-- A numeral spells its value. -/
theorem spells_numeral {n : Numeral} (h : n.WellFormed) (hf : n.value.isFinite = true) :
    Spells n.chars [.number n.value] := fun _ hrest =>
  (Token.Lexeme.number h (Numeral.longest_of_ends h hrest.ends) hf).stream

/-- A name spells its symbol. -/
theorem spells_name {name : String} (h : IsName name) : Spells name.toList [.symbol name] :=
  fun _ hrest => (Token.Lexeme.symbol h hrest).stream

/-! ## Rows of spellings -/

/-- Spellings with a blank between any two of them spell their tokens in order. -/
theorem spells_intercalate {css : List (List Char)} {tss : List (List Token)}
    (h : List.Forall₂ Spells css tss) : Spells (List.intercalate [' '] css) tss.flatten := by
  induction h with
  | nil => exact fun rest _ => rfl
  | @cons cs ts css tss hfirst hmore ih =>
    intro rest hrest
    cases hmore with
    | nil => simpa using hfirst rest hrest
    | @cons cs' ts' css tss =>
      have hblank : isBlank ' ' = true := rfl
      rw [List.intercalate_cons_cons, List.append_assoc, List.append_assoc, List.singleton_append,
        hfirst _ (boundary_of_isBlank hblank _), Token.stream_cons_of_isBlank hblank, ih rest hrest]
      simp

/-- **A row of spellings in parentheses spells a list.** -/
theorem spells_list {css : List (List Char)} {tss : List (List Token)}
    (h : List.Forall₂ Spells css tss) :
    Spells ('(' :: List.intercalate [' '] css ++ [')']) (.lparen :: tss.flatten ++ [.rparen]) := by
  intro rest _
  have hclose : Boundary (')' :: rest) := fun c hc => by
    obtain rfl : ')' = c := by simpa using hc
    decide
  rw [List.append_assoc, List.cons_append, Token.stream_lparen, List.singleton_append,
    spells_intercalate h _ hclose, Token.stream_rparen]
  simp

/-- **The tokens of a spelling on its own.** -/
theorem Spells.ofSource {source : String} {ts : List Token} (h : Spells source.toList ts) :
    Token.ofSource source = .ok ts := by
  have hstream := h [] (fun c hc => by simp at hc)
  rw [List.append_nil, Token.stream_nil, List.append_nil] at hstream
  rw [Token.ofSource, hstream]

end Lisplet
