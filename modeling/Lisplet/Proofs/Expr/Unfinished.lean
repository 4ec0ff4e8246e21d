import Lisplet.Proofs.Expr.Grammar
import Lisplet.Proofs.Token.Parens

/-!
# Proofs/Expr/Unfinished — unfinished texts and the parser

Whether a text is unfinished is told by its parentheses alone, wherever they stand, and the parser
never sees those inside strings.  Still the two agree: an expression has no strings and closes what
it opens, and tokens that end inside a list have no strings either and close less.
-/

namespace Lisplet.Expr

open Token (Opens)

theorem opens_flatten {es : List Expr} (h : ∀ e ∈ es, Opens e.tokens 0) :
    Opens (es.map tokens).flatten 0 := by
  refine .flatten fun ts hts => ?_
  obtain ⟨e, he, rfl⟩ := List.mem_map.mp hts
  exact h e he

/-- An expression closes the lists that it opens. -/
theorem IsSyntax.opens {e : Expr} (h : e.IsSyntax) : Opens e.tokens 0 := by
  induction h with
  | number => exact .number _
  | symbol => exact .symbol _
  | list _ ih =>
    rw [tokens_list, ← List.cons_append]
    exact (Opens.lparen.append (opens_flatten ih)).append_rparen

/-- A list that is open has one parenthesis more than its elements. -/
theorem opens_row {es : List Expr} (h : ∀ e ∈ es, e.IsSyntax) :
    Opens (.lparen :: (es.reverse.map tokens).flatten) 1 :=
  Opens.lparen.append (opens_flatten fun e he => (h e (List.mem_reverse.mp he)).opens)

/-- The lists that are open are those that their tokens open. -/
theorem opens_openTokens {inner : List Expr} {outer : List (List Expr)}
    (hinner : ∀ e ∈ inner, e.IsSyntax) (houter : ∀ es ∈ outer, ∀ e ∈ es, e.IsSyntax) :
    Opens (openTokens inner outer) (outer.length + 1) := by
  induction outer generalizing inner with
  | nil => exact opens_row hinner
  | cons next outer ih =>
    obtain ⟨hnext, houter⟩ := List.forall_mem_cons.mp houter
    exact (ih hnext houter).append (opens_row hinner)

/-- **A text that is read is finished.** -/
theorem isUnfinished_of_ofSource {source : String} {e : Expr} (h : ofSource source = .ok e) :
    isUnfinished source = false := by
  unfold ofSource at h
  split at h
  · simp at h
  · next ts hts =>
    have hopens : Opens ts 0 := by
      obtain ⟨rfl, -⟩ | ⟨he, rfl⟩ := tokens_of_ofTokens h
      · exact .nil
      · exact he.opens
    rw [Token.isUnfinished_of_opens hts hopens]
    rfl

/-- **A text that ends inside a list is unfinished.** -/
theorem isUnfinished_of_openList {source : String} (h : ofSource source = .error .openList) :
    isUnfinished source = true := by
  unfold ofSource at h
  split at h
  · next hts =>
    have hkind := Token.kind_of_ofSource hts
    rw [Except.error.inj h] at hkind
    simp [Fault.kind] at hkind
  · next ts hts =>
    obtain ⟨inner, outer, hinner, houter, rfl⟩ := openTokens_of_ofTokens h
    rw [Token.isUnfinished_of_opens hts (opens_openTokens hinner houter)]
    simp

end Lisplet.Expr
