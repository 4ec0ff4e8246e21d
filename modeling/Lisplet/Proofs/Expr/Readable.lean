import Lisplet.Proofs.Expr.Grammar
import Lisplet.Proofs.Token.Division

/-!
# Proofs/Expr/Readable — the expressions that are read

`Readable` describes the expressions of the source language: finite numbers, names, and lists of
these.  The tokens of a text are well formed, being written by words, and an expression with
well-formed tokens is readable; so whatever is read from a text is readable
(`readable_of_ofSource`).
-/

namespace Lisplet

namespace Token

/-- A token that the reader of texts makes: its number is finite, its symbol a name. -/
def WellFormed : Token → Prop
  | .number x => x.isFinite = true
  | .symbol name => IsName name
  | _ => True

/-- A word writes a token that is well formed. -/
theorem Lexeme.wellFormed {t : Token} {word rest : List Char} (h : Lexeme t word rest) :
    t.WellFormed := by
  cases h with
  | number _ _ hf => exact hf
  | symbol hname => exact hname
  | lparen | rparen | string => trivial

/-- **Every token of a text is well formed.** -/
theorem Division.wellFormed {cs rest : List Char} {ts : List Token} {fault : Option Fault}
    (h : Division cs ts rest fault) : ∀ t ∈ ts, t.WellFormed := by
  induction h with
  | finish | stuck => simp
  | word _ hlexeme _ ih => exact List.forall_mem_cons.mpr ⟨hlexeme.wellFormed, ih⟩

end Token

namespace Expr

/-- **An expression of the source language.** -/
inductive Readable : Expr → Prop
  | number {x : Float} : x.isFinite = true → Readable (.number x)
  | symbol {name : String} : IsName name → Readable (.symbol name)
  | list {es : List Expr} : (∀ e ∈ es, Readable e) → Readable (.list es)

theorem Readable.isSyntax {e : Expr} (h : e.Readable) : e.IsSyntax := by
  induction h with
  | number => exact .number
  | symbol => exact .symbol
  | list _ ih => exact .list ih

/-- An expression is readable if its tokens are well formed. -/
theorem IsSyntax.readable {e : Expr} (he : e.IsSyntax) (h : ∀ t ∈ e.tokens, t.WellFormed) :
    e.Readable := by
  induction he with
  | number => exact .number (h _ List.mem_cons_self)
  | symbol => exact .symbol (h _ List.mem_cons_self)
  | list _ ih =>
    refine .list fun e he => ih e he fun t ht => h t ?_
    rw [tokens_list]
    refine List.mem_cons_of_mem _ (List.mem_append_left _ ?_)
    exact List.mem_flatten.mpr ⟨e.tokens, List.mem_map_of_mem he, ht⟩

/-- **Whatever is read from a text is readable.** -/
theorem readable_of_ofSource {source : String} {e : Expr} (h : ofSource source = .ok e) :
    e.Readable := by
  unfold ofSource at h
  split at h
  · simp at h
  · next ts hts =>
    obtain ⟨rest, hdivision⟩ := Token.division_of_ofSource hts
    obtain ⟨-, rfl⟩ | ⟨he, rfl⟩ := tokens_of_ofTokens h
    · exact .list (by simp)
    · exact he.readable hdivision.wellFormed

end Expr

end Lisplet
