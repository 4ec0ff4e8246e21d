import Lisplet.Expr.Parser

/-!
# Proofs/Expr/Grammar — the tokens of an expression

An expression without procedures has tokens: one for a number or a symbol, and for a list those of
its elements between two parentheses.  The parser accepts these and no others, apart from no tokens
at all: it makes an expression of its tokens (`ofTokens_tokens`), and what it makes of tokens has
exactly these tokens (`tokens_of_ofTokens`).  The lists that are open on the way stand for the
tokens that are taken already, `openTokens`.
-/

namespace Lisplet.Expr

/-- **An expression without procedures**: numbers, symbols, and lists of these. -/
inductive IsSyntax : Expr → Prop
  | number {x : Float} : IsSyntax (.number x)
  | symbol {name : String} : IsSyntax (.symbol name)
  | list {es : List Expr} : (∀ e ∈ es, IsSyntax e) → IsSyntax (.list es)

/-! ## The tokens of an expression -/

mutual

/-- The tokens of an expression of the source language. -/
def tokens : Expr → List Token
  | .number x => [.number x]
  | .symbol name => [.symbol name]
  | .list es => .lparen :: (tokensAll es ++ [.rparen])
  | .lambda .. | .builtin .. => []

/-- The tokens of a row of expressions. -/
def tokensAll : List Expr → List Token
  | [] => []
  | e :: es => tokens e ++ tokensAll es

end

@[simp] theorem tokensAll_eq_flatten (es : List Expr) :
    tokensAll es = (es.map tokens).flatten := by
  induction es with
  | nil => rfl
  | cons e es ih => simp [tokensAll, ih]

theorem tokens_list (es : List Expr) :
    tokens (.list es) = .lparen :: ((es.map tokens).flatten ++ [.rparen]) := by
  rw [tokens, tokensAll_eq_flatten]

/-! ## Tokens of an expression are accepted -/

/-- A row of expressions, each read as the next element, is read as the next elements. -/
theorem readOpen_row {es : List Expr}
    (h : ∀ e ∈ es, ∀ inner outer ts, readOpen inner outer (tokens e ++ ts) =
      readOpen (e :: inner) outer ts) (inner : List Expr) (outer : List (List Expr))
    (ts : List Token) :
    readOpen inner outer ((es.map tokens).flatten ++ ts) =
      readOpen (es.reverse ++ inner) outer ts := by
  induction es generalizing inner with
  | nil => rfl
  | cons e es ih =>
    rw [List.map_cons, List.flatten_cons, List.append_assoc, h e List.mem_cons_self,
      ih fun e' h' => h e' (List.mem_cons_of_mem e h')]
    simp

/-- **The tokens of an expression make it the next element** of the list that is open. -/
theorem readOpen_tokens {e : Expr} (he : e.IsSyntax) (inner : List Expr)
    (outer : List (List Expr)) (ts : List Token) :
    readOpen inner outer (e.tokens ++ ts) = readOpen (e :: inner) outer ts := by
  induction he generalizing inner outer ts with
  | number => rfl
  | symbol => rfl
  | list _ ih =>
    rw [tokens_list, List.cons_append, List.append_assoc, readOpen, readOpen_row ih,
      List.append_nil, List.singleton_append, readOpen, List.reverse_reverse]

/-- **An expression is read back from its tokens.** -/
theorem ofTokens_tokens {e : Expr} (he : e.IsSyntax) : ofTokens e.tokens = .ok e := by
  cases he with
  | number => rfl
  | symbol => rfl
  | list hes =>
    have hrow := readOpen_row (fun e h => readOpen_tokens (hes e h)) [] [] [.rparen]
    rw [ofTokens, tokens_list, readOne, readList, hrow, List.append_nil, readOpen,
      List.reverse_reverse]

/-- **Different expressions have different tokens.** -/
theorem tokens_injective {e e' : Expr} (he : e.IsSyntax) (he' : e'.IsSyntax)
    (h : e.tokens = e'.tokens) : e = e' := by
  have hread := ofTokens_tokens he
  rw [h, ofTokens_tokens he'] at hread
  exact (Except.ok.inj hread).symm

/-! ## Accepted tokens are those of an expression -/

/-- **The tokens that open lists are made of**: for each list its parenthesis and the tokens of its
elements so far, the outermost list first. -/
def openTokens (inner : List Expr) : List (List Expr) → List Token
  | [] => .lparen :: (inner.reverse.map tokens).flatten
  | next :: outer => openTokens next outer ++ .lparen :: (inner.reverse.map tokens).flatten

theorem openTokens_cons (e : Expr) (inner : List Expr) (outer : List (List Expr)) :
    openTokens (e :: inner) outer = openTokens inner outer ++ e.tokens := by
  cases outer <;> simp [openTokens]

/-- A parenthesis opens a list without elements. -/
theorem openTokens_nil (inner : List Expr) (outer : List (List Expr)) :
    openTokens [] (inner :: outer) = openTokens inner outer ++ [.lparen] := rfl

/-- A list that is closed has the tokens that it was made of. -/
theorem openTokens_append_rparen (inner : List Expr) :
    openTokens inner [] ++ [.rparen] = tokens (.list inner.reverse) := by
  rw [tokens_list, openTokens, List.cons_append]

/-- A list that is closed is the next element of the list around it. -/
theorem openTokens_close (inner next : List Expr) (outer : List (List Expr)) :
    openTokens inner (next :: outer) ++ [.rparen] =
      openTokens (.list inner.reverse :: next) outer := by
  rw [openTokens_cons, ← openTokens_append_rparen, openTokens, openTokens, List.append_assoc]

theorem isSyntax_reverse {inner : List Expr} (h : ∀ e ∈ inner, e.IsSyntax) :
    (Expr.list inner.reverse).IsSyntax := .list fun e he => h e (List.mem_reverse.mp he)

/-- **The tokens taken so far and those that follow are the tokens of what is read** and those
behind it. -/
theorem tokens_of_readOpen {inner : List Expr} {outer : List (List Expr)} {ts rest : List Token}
    {e : Expr} (hinner : ∀ e ∈ inner, e.IsSyntax) (houter : ∀ es ∈ outer, ∀ e ∈ es, e.IsSyntax)
    (h : readOpen inner outer ts = .ok (e, rest)) :
    e.IsSyntax ∧ openTokens inner outer ++ ts = e.tokens ++ rest := by
  fun_induction readOpen inner outer ts with
  | case1 => simp at h
  | case2 inner outer ts ih =>
    obtain ⟨he, htokens⟩ := ih (by simp) (List.forall_mem_cons.mpr ⟨hinner, houter⟩) h
    exact ⟨he, by rw [← htokens, openTokens_nil, List.append_assoc, List.singleton_append]⟩
  | case3 inner ts =>
    obtain ⟨rfl, rfl⟩ := Prod.mk.inj (Except.ok.inj h)
    refine ⟨isSyntax_reverse hinner, ?_⟩
    rw [← openTokens_append_rparen, List.append_assoc, List.singleton_append]
  | case4 inner ts next outer ih =>
    obtain ⟨hnext, houter⟩ := List.forall_mem_cons.mp houter
    obtain ⟨he, htokens⟩ :=
      ih (List.forall_mem_cons.mpr ⟨isSyntax_reverse hinner, hnext⟩) houter h
    exact ⟨he, by rw [← htokens, ← openTokens_close, List.append_assoc, List.singleton_append]⟩
  | case5 inner outer x ts ih =>
    obtain ⟨he, htokens⟩ := ih (List.forall_mem_cons.mpr ⟨.number, hinner⟩) houter h
    exact ⟨he, by rw [← htokens, openTokens_cons, List.append_assoc]; rfl⟩
  | case6 inner outer name ts ih =>
    obtain ⟨he, htokens⟩ := ih (List.forall_mem_cons.mpr ⟨.symbol, hinner⟩) houter h
    exact ⟨he, by rw [← htokens, openTokens_cons, List.append_assoc]; rfl⟩
  | case7 => simp at h
  | case8 => simp at h

/-- **Tokens that end inside a list are those of the lists that are open then.** -/
theorem openTokens_of_readOpen {inner : List Expr} {outer : List (List Expr)} {ts : List Token}
    (hinner : ∀ e ∈ inner, e.IsSyntax) (houter : ∀ es ∈ outer, ∀ e ∈ es, e.IsSyntax)
    (h : readOpen inner outer ts = .error .openList) :
    ∃ inner' outer', (∀ e ∈ inner', e.IsSyntax) ∧ (∀ es ∈ outer', ∀ e ∈ es, e.IsSyntax) ∧
      openTokens inner outer ++ ts = openTokens inner' outer' := by
  -- Each token that is taken moves from the row to the open lists, up to the end of the row.
  fun_induction readOpen inner outer ts with
  | case1 inner outer => exact ⟨inner, outer, hinner, houter, List.append_nil _⟩
  | case2 inner outer ts ih =>
    rw [List.append_cons, ← openTokens_nil]
    exact ih (by simp) (List.forall_mem_cons.mpr ⟨hinner, houter⟩) h
  | case4 inner ts next outer ih =>
    obtain ⟨hnext, houter⟩ := List.forall_mem_cons.mp houter
    rw [List.append_cons, openTokens_close]
    exact ih (List.forall_mem_cons.mpr ⟨isSyntax_reverse hinner, hnext⟩) houter h
  | case5 inner outer x ts ih =>
    rw [List.append_cons, ← tokens, ← openTokens_cons]
    exact ih (List.forall_mem_cons.mpr ⟨.number, hinner⟩) houter h
  | case6 inner outer name ts ih =>
    rw [List.append_cons, ← tokens, ← openTokens_cons]
    exact ih (List.forall_mem_cons.mpr ⟨.symbol, hinner⟩) houter h
  | case3 | case7 | case8 => simp at h

theorem tokens_of_readOne {ts rest : List Token} {e : Expr} (h : readOne ts = .ok (e, rest)) :
    (ts = [] ∧ e = .list [] ∧ rest = []) ∨ (e.IsSyntax ∧ ts = e.tokens ++ rest) := by
  fun_cases readOne ts with
  | case1 =>
    obtain ⟨rfl, rfl⟩ := Prod.mk.inj (Except.ok.inj h)
    exact .inl ⟨rfl, rfl, rfl⟩
  | case2 ts => exact .inr (tokens_of_readOpen (by simp) (by simp) h)
  | case4 x ts =>
    obtain ⟨rfl, rfl⟩ := Prod.mk.inj (Except.ok.inj h)
    exact .inr ⟨.number, rfl⟩
  | case5 name ts =>
    obtain ⟨rfl, rfl⟩ := Prod.mk.inj (Except.ok.inj h)
    exact .inr ⟨.symbol, rfl⟩
  | case3 | case6 | case7 => simp [readOne] at h

/-- **What tokens are read as has exactly these tokens**, apart from no tokens, which are the empty
list. -/
theorem tokens_of_ofTokens {ts : List Token} {e : Expr} (h : ofTokens ts = .ok e) :
    (ts = [] ∧ e = .list []) ∨ (e.IsSyntax ∧ ts = e.tokens) := by
  unfold ofTokens at h
  split at h
  · simp at h
  · next hread =>
    obtain rfl := Except.ok.inj h
    obtain ⟨hts, he, -⟩ | ⟨he, hts⟩ := tokens_of_readOne hread
    · exact .inl ⟨hts, he⟩
    · exact .inr ⟨he, by rw [hts, List.append_nil]⟩
  · simp at h

theorem openTokens_of_ofTokens {ts : List Token} (h : ofTokens ts = .error .openList) :
    ∃ inner outer, (∀ e ∈ inner, e.IsSyntax) ∧ (∀ es ∈ outer, ∀ e ∈ es, e.IsSyntax) ∧
      ts = openTokens inner outer := by
  unfold ofTokens at h
  split at h
  · next hread =>
    obtain rfl := Except.error.inj h
    fun_cases readOne ts with
    | case2 ts => exact openTokens_of_readOpen (by simp) (by simp) hread
    | case1 | case3 | case4 | case5 | case6 | case7 => simp [readOne] at hread
  · simp at h
  · simp at h

/-! ## Refused tokens -/

theorem kind_of_readOpen {inner : List Expr} {outer : List (List Expr)} {ts : List Token}
    {fault : Fault} (h : readOpen inner outer ts = .error fault) : fault.kind = .syntactic := by
  fun_induction readOpen inner outer ts with
  | case1 | case7 | case8 =>
    obtain rfl := Except.error.inj h
    rfl
  | case2 _ _ _ ih | case4 _ _ _ _ ih | case5 _ _ _ _ ih | case6 _ _ _ _ ih => exact ih h
  | case3 => simp at h

/-- Tokens that are refused are at fault in their syntax. -/
theorem kind_of_ofTokens {ts : List Token} {fault : Fault} (h : ofTokens ts = .error fault) :
    fault.kind = .syntactic := by
  unfold ofTokens at h
  split at h
  · next hread =>
    obtain rfl := Except.error.inj h
    fun_cases readOne ts with
    | case2 ts => exact kind_of_readOpen hread
    | case1 | case4 | case5 => simp [readOne] at hread
    | case3 | case6 | case7 =>
      obtain rfl := Except.error.inj hread
      rfl
  · simp at h
  · obtain rfl := Except.error.inj h
    rfl

/-- **The parser accepts exactly its grammar**: tokens are read as an expression if and only if they
are its tokens, or none at all and it is the empty list.  An expression is known by its tokens, and
all other tokens are at fault in their syntax. -/
theorem ofTokens_iff :
    (∀ (ts : List Token) (e : Expr), ofTokens ts = .ok e ↔
      (ts = [] ∧ e = .list []) ∨ (e.IsSyntax ∧ ts = e.tokens)) ∧
    (∀ e e' : Expr, e.IsSyntax → e'.IsSyntax → e.tokens = e'.tokens → e = e') ∧
    ∀ ts : List Token, ts ≠ [] → (∀ e : Expr, e.IsSyntax → ts ≠ e.tokens) →
      ∃ fault, ofTokens ts = .error fault ∧ fault.kind = .syntactic := by
  refine ⟨fun ts e => ⟨tokens_of_ofTokens, ?_⟩, fun _ _ => tokens_injective, fun ts hne hts => ?_⟩
  · rintro (⟨rfl, rfl⟩ | ⟨he, rfl⟩)
    · rfl
    · exact ofTokens_tokens he
  · cases h : ofTokens ts with
    | error fault => exact ⟨fault, rfl, kind_of_ofTokens h⟩
    | ok e =>
      obtain ⟨hnil, -⟩ | ⟨he, htokens⟩ := tokens_of_ofTokens h
      · exact absurd hnil hne
      · exact absurd htokens (hts e he)

/-- The tokens of `(f (1))` are read and tell it from `((f 1))`; those of `) f` are refused. -/
theorem ofTokens_iff_nested :
    ofTokens [.lparen, .symbol "f", .lparen, .number 1, .rparen, .rparen] =
        .ok (.list [.symbol "f", .list [.number 1]]) ∧
      tokens (.list [.symbol "f", .list [.number 1]]) ≠
        tokens (.list [.list [.symbol "f", .number 1]]) ∧
      ∃ fault, ofTokens [.rparen, .symbol "f"] = .error fault ∧ fault.kind = .syntactic := by
  have hf : (Expr.symbol "f").IsSyntax := .symbol
  have hnumber : (Expr.list [.number 1]).IsSyntax := .list (by simpa using IsSyntax.number)
  have htree : (Expr.list [.symbol "f", .list [.number 1]]).IsSyntax :=
    .list (by simp [hf, hnumber])
  have hinner : (Expr.list [.symbol "f", .number 1]).IsSyntax :=
    .list (by simpa [hf] using IsSyntax.number)
  have hother : (Expr.list [.list [.symbol "f", .number 1]]).IsSyntax := .list (by simpa using hinner)
  refine ⟨(ofTokens_iff.1 _ _).mpr (.inr ⟨htree, rfl⟩), fun h => ?_, ?_⟩
  · simpa using ofTokens_iff.2.1 _ _ htree hother h
  · refine ofTokens_iff.2.2 _ (List.cons_ne_nil _ _) ?_
    rintro e (_ | _ | _) h <;> simp [tokens] at h

end Lisplet.Expr
