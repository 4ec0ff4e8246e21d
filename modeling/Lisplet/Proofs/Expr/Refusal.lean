import Lisplet.Proofs.Expr.Grammar
import Lisplet.Proofs.Token.Division

/-!
# Proofs/Expr/Refusal — which tokens are refused, and for what

Tokens that open a list are judged by a counter alone: it goes up at each opening parenthesis and
down at each closing one, and the first place where a string stands or the counter is back at zero
decides.  `Verdict` says so, and what comes of tokens that start otherwise; the parser, which builds
the lists on the way, comes to the same (`verdict_refusal?`).  Tokens end inside a list exactly when
more of them could still make an expression (`openList_iff`).
-/

namespace Lisplet

namespace Token

/-! ## The counter -/

/-- What a token adds to the number of lists that are open. -/
def step : Token → Int
  | .lparen => 1
  | .rparen => -1
  | _ => 0

/-- **The counter behind a row of tokens**, when it is at `start` in front of them. -/
def counter (start : Int) (ts : List Token) : Int := ts.foldl (fun depth t => depth + t.step) start

/-- **Whether a place among tokens decides**: a string stands there, or the counter is at zero
behind it. -/
def Decides (start : Int) (ts : List Token) (i : Nat) : Prop :=
  ∃ t, ts[i]? = some t ∧ ((∃ value, t = .string value) ∨ counter start (ts.take (i + 1)) = 0)

/-- **The first place that decides.** -/
structure FirstDecides (start : Int) (ts : List Token) (i : Nat) : Prop where
  decides : Decides start ts i
  first : ∀ j < i, ¬ Decides start ts j

/-- What comes of a place that decides: a string there is refused, and a list that ends there is
read if nothing follows it. -/
def decision (ts : List Token) (i : Nat) : Option Fault :=
  match ts[i]? with
  | some (.string value) => some (.stringToken value)
  | _ => if i + 1 = ts.length then none else some .leftover

section Decides

variable {start : Int} {t : Token} {ts : List Token} {i j : Nat}

theorem decides_zero :
    Decides start (t :: ts) 0 ↔ (∃ value, t = .string value) ∨ start + t.step = 0 := by
  simp [Decides, counter]

theorem decides_succ : Decides start (t :: ts) (i + 1) ↔ Decides (start + t.step) ts i := by
  simp [Decides, counter]

theorem FirstDecides.unique (h : FirstDecides start ts i) (h' : FirstDecides start ts j) :
    i = j := by
  rcases Nat.lt_trichotomy i j with hlt | heq | hgt
  · exact absurd h.decides (h'.first i hlt)
  · exact heq
  · exact absurd h'.decides (h.first j hgt)

theorem firstDecides_zero (h : Decides start (t :: ts) 0) : FirstDecides start (t :: ts) 0 :=
  ⟨h, fun j hj => absurd hj (Nat.not_lt_zero j)⟩

/-- A first token that does not decide leaves it to the others. -/
theorem FirstDecides.cons (ht : ¬ Decides start (t :: ts) 0)
    (h : FirstDecides (start + t.step) ts i) : FirstDecides start (t :: ts) (i + 1) where
  decides := decides_succ.mpr h.decides
  first := by
    intro j hj
    rcases j with - | j
    · exact ht
    · rw [decides_succ]
      exact h.first j (Nat.lt_of_succ_lt_succ hj)

theorem Decides.lt_length (h : Decides start ts i) : i < ts.length := by
  obtain ⟨t, ht, -⟩ := h
  exact (List.getElem?_eq_some_iff.mp ht).1

/-- A list that ends at a place is read if nothing is left behind it. -/
theorem decision_of_not_string (hlt : i < ts.length)
    (hstring : ∀ value, ts[i]? ≠ some (.string value)) :
    decision ts i = if (ts.drop (i + 1)).isEmpty then none else some .leftover := by
  have hend : (ts.drop (i + 1)).isEmpty = true ↔ i + 1 = ts.length := by
    rw [List.isEmpty_iff, List.drop_eq_nil_iff]
    omega
  rw [decision]
  split
  · next value hvalue => exact absurd hvalue (hstring value)
  · simp only [hend]

end Decides

end Token

namespace Expr

open Token (Decides FirstDecides decision)

/-! ## The parser and the counter -/

/-- **What reading up to the end of the open lists comes to by the counter**, which starts at
`depth`: the place that decides first is a string, or the end of the lists, or there is none. -/
inductive Settled (depth : Int) (ts : List Token) : Except Fault (Expr × List Token) → Prop
  | undecided : (∀ i, ¬ Decides depth ts i) → Settled depth ts (.error .openList)
  | string {i : Nat} {value : String} : FirstDecides depth ts i → ts[i]? = some (.string value) →
      Settled depth ts (.error (.stringToken value))
  | closed {i : Nat} {e : Expr} : FirstDecides depth ts i →
      (∀ value, ts[i]? ≠ some (.string value)) → Settled depth ts (.ok (e, ts.drop (i + 1)))

/-- A first token that does not decide is counted and passed over. -/
theorem Settled.cons {depth : Int} {t : Token} {ts : List Token}
    {result : Except Fault (Expr × List Token)} (ht : ¬ Decides depth (t :: ts) 0)
    (h : Settled (depth + t.step) ts result) : Settled depth (t :: ts) result := by
  rcases h with hnone | ⟨hfirst, hstring⟩ | ⟨hfirst, hstring⟩
  · refine .undecided fun i => ?_
    rcases i with - | i
    · exact ht
    · rw [Token.decides_succ]
      exact hnone i
  · exact .string (hfirst.cons ht) hstring
  · exact .closed (hfirst.cons ht) hstring

/-- A token that is no string and leaves lists open is passed over. -/
theorem Settled.pass {n m : Nat} {t : Token} {ts : List Token}
    {result : Except Fault (Expr × List Token)} (ht : ∀ value, t ≠ .string value)
    (hstep : (n : Int) + t.step = m) (h : Settled (m + 1) ts result) :
    Settled (n + 1) (t :: ts) result := by
  have hcount : (n : Int) + 1 + t.step = m + 1 := by omega
  refine .cons ?_ (hcount ▸ h)
  rw [Token.decides_zero, hcount]
  rintro (⟨value, rfl⟩ | hzero)
  · exact ht value rfl
  · omega

/-- **The parser settles as the counter does**, which is at the number of open lists. -/
theorem settled_readOpen {ts : List Token} (h : .finish ∉ ts) (inner : List Expr)
    (outer : List (List Expr)) :
    Settled (outer.length + 1) ts (readOpen inner outer ts) := by
  fun_induction readOpen inner outer ts with
  | case1 inner outer => exact .undecided fun i hi => by simpa using hi.lt_length
  | case2 inner outer ts ih => exact .pass (by simp) rfl (ih (List.not_mem_of_not_mem_cons h))
  | case3 inner ts =>
    have hdecides : Decides 1 (.rparen :: ts) 0 := Token.decides_zero.mpr (.inr rfl)
    exact .closed (Token.firstDecides_zero hdecides) (by simp)
  | case4 inner ts next outer ih =>
    refine .pass (by simp) ?_ (ih (List.not_mem_of_not_mem_cons h))
    rw [Token.step, List.length_cons]
    omega
  | case5 inner outer x ts ih =>
    exact .pass (by simp) (Int.add_zero _) (ih (List.not_mem_of_not_mem_cons h))
  | case6 inner outer name ts ih =>
    exact .pass (by simp) (Int.add_zero _) (ih (List.not_mem_of_not_mem_cons h))
  | case7 inner outer value ts =>
    have hdecides : Decides (outer.length + 1) (.string value :: ts) 0 :=
      Token.decides_zero.mpr (.inl ⟨value, rfl⟩)
    exact .string (Token.firstDecides_zero hdecides) rfl
  | case8 inner outer ts => exact absurd List.mem_cons_self h

/-! ## The verdict -/

/-- The fault of a result, if it is one. -/
def refusal? {α : Type} : Except Fault α → Option Fault
  | .ok _ => none
  | .error fault => some fault

/-- **The verdict on a row of tokens**: the fault that it is refused for, if it is refused.  The
first token tells; of a list that is opened, the first place that decides does, and no place means
that the list is never closed. -/
inductive Verdict : List Token → Option Fault → Prop
  | empty : Verdict [] none
  | stray {ts : List Token} : Verdict (.rparen :: ts) (some .strayClose)
  | string {value : String} {ts : List Token} :
      Verdict (.string value :: ts) (some (.stringToken value))
  | number {x : Float} {ts : List Token} :
      Verdict (.number x :: ts) (if ts.isEmpty then none else some .leftover)
  | symbol {name : String} {ts : List Token} :
      Verdict (.symbol name :: ts) (if ts.isEmpty then none else some .leftover)
  | decided {ts : List Token} {i : Nat} : FirstDecides 0 (.lparen :: ts) i →
      Verdict (.lparen :: ts) (decision (.lparen :: ts) i)
  | undecided {ts : List Token} : (∀ i, ¬ Decides 0 (.lparen :: ts) i) →
      Verdict (.lparen :: ts) (some .openList)

/-- There is one verdict on a row of tokens. -/
theorem Verdict.unique {ts : List Token} {fault fault' : Option Fault} (h : Verdict ts fault)
    (h' : Verdict ts fault') : fault = fault' := by
  rcases h with _ | _ | _ | _ | _ | hfirst | hnone <;>
    rcases h' with _ | _ | _ | _ | _ | hfirst' | hnone'
  any_goals rfl
  · rw [hfirst.unique hfirst']
  · exact absurd hfirst.decides (hnone' _)
  · exact absurd hfirst'.decides (hnone _)

/-- The parser refuses what is left behind an expression, and nothing else of its own. -/
theorem refusal?_ofTokens {ts : List Token} : refusal? (ofTokens ts) =
    match readOne ts with
    | .error fault => some fault
    | .ok (_, rest) => if rest.isEmpty then none else some .leftover := by
  rw [ofTokens]
  rcases readOne ts with fault | ⟨e, _ | ⟨t, rest⟩⟩ <;> rfl

/-- **The parser comes to the verdict.** -/
theorem verdict_refusal? {ts : List Token} (h : .finish ∉ ts) :
    Verdict ts (refusal? (ofTokens ts)) := by
  rw [refusal?_ofTokens]
  fun_cases readOne ts with
  | case1 => exact .empty
  | case3 => exact .stray
  | case4 => exact .number
  | case5 => exact .symbol
  | case6 => exact .string
  | case7 => exact absurd List.mem_cons_self h
  | case2 ts =>
    have hsettled : Settled 0 (.lparen :: ts) (readList ts) :=
      .cons (by simp [Token.decides_zero, Token.step])
        (settled_readOpen (List.not_mem_of_not_mem_cons h) [] [])
    generalize readList ts = result at hsettled
    rcases hsettled with hnone | ⟨hfirst, hstring⟩ | ⟨hfirst, hstring⟩
    · exact .undecided hnone
    · have hdecided := Verdict.decided hfirst
      rwa [decision, hstring] at hdecided
    · have hdecided := Verdict.decided hfirst
      rwa [Token.decision_of_not_string hfirst.decides.lt_length hstring] at hdecided

/-! ## Tokens that end inside a list -/

theorem readOne_of_ofTokens {ts : List Token} {e : Expr} (h : ofTokens ts = .ok e) :
    readOne ts = .ok (e, []) := by
  unfold ofTokens at h
  split at h
  · simp at h
  · next hread =>
    obtain rfl := Except.ok.inj h
    exact hread
  · simp at h

/-- What is read does not depend on the tokens behind it. -/
theorem readOpen_append_of_ok {inner : List Expr} {outer : List (List Expr)} {ts rest : List Token}
    {e : Expr} (h : readOpen inner outer ts = .ok (e, rest)) (more : List Token) :
    readOpen inner outer (ts ++ more) = .ok (e, rest ++ more) := by
  fun_induction readOpen inner outer ts with
  | case3 inner ts =>
    obtain ⟨rfl, rfl⟩ := Prod.mk.inj (Except.ok.inj h)
    rfl
  | case2 _ _ _ ih | case4 _ _ _ _ ih | case5 _ _ _ _ ih | case6 _ _ _ _ ih => exact ih h
  | case1 | case7 | case8 => simp at h

/-- What is refused stays so, unless it ends inside a list. -/
theorem readOpen_append_of_error {inner : List Expr} {outer : List (List Expr)} {ts : List Token}
    {fault : Fault} (h : readOpen inner outer ts = .error fault) (hfault : fault ≠ .openList)
    (more : List Token) : readOpen inner outer (ts ++ more) = .error fault := by
  fun_induction readOpen inner outer ts with
  | case1 => exact absurd (Except.error.inj h).symm hfault
  | case2 _ _ _ ih | case4 _ _ _ _ ih | case5 _ _ _ _ ih | case6 _ _ _ _ ih => exact ih h
  | case7 | case8 => exact h
  | case3 => simp at h

theorem readOne_append_of_ok {ts rest : List Token} {e : Expr} (hne : ts ≠ [])
    (h : readOne ts = .ok (e, rest)) (more : List Token) :
    readOne (ts ++ more) = .ok (e, rest ++ more) := by
  fun_cases readOne ts with
  | case1 => exact absurd rfl hne
  | case2 ts => exact readOpen_append_of_ok h more
  | case4 | case5 =>
    obtain ⟨rfl, rfl⟩ := Prod.mk.inj (Except.ok.inj h)
    rfl
  | case3 | case6 | case7 => simp [readOne] at h

theorem readOne_append_of_error {ts : List Token} {fault : Fault}
    (h : readOne ts = .error fault) (hfault : fault ≠ .openList) (more : List Token) :
    readOne (ts ++ more) = .error fault := by
  fun_cases readOne ts with
  | case2 ts => exact readOpen_append_of_error h hfault more
  | case3 | case6 | case7 => exact h
  | case1 | case4 | case5 => simp [readOne] at h

/-- **Lists that are open are completed by closing all of them.** -/
theorem exists_openTokens_append {inner : List Expr} {outer : List (List Expr)}
    (hinner : ∀ e ∈ inner, e.IsSyntax) (houter : ∀ es ∈ outer, ∀ e ∈ es, e.IsSyntax) :
    ∃ e : Expr, e.IsSyntax ∧
      openTokens inner outer ++ List.replicate (outer.length + 1) .rparen = e.tokens := by
  induction outer generalizing inner with
  | nil => exact ⟨.list inner.reverse, isSyntax_reverse hinner, openTokens_append_rparen inner⟩
  | cons next outer ih =>
    obtain ⟨hnext, houter⟩ := List.forall_mem_cons.mp houter
    obtain ⟨e, he, htokens⟩ := ih (List.forall_mem_cons.mpr ⟨isSyntax_reverse hinner, hnext⟩) houter
    refine ⟨e, he, ?_⟩
    rw [List.length_cons, List.replicate_succ, List.append_cons, openTokens_close, htokens]

/-- **Tokens end inside a list exactly when they are some, but not all, of the tokens that make an
expression.** -/
theorem openList_iff {ts : List Token} : ofTokens ts = .error .openList ↔
    ts ≠ [] ∧ ∃ more, more ≠ [] ∧ ∃ e, ofTokens (ts ++ more) = .ok e := by
  constructor
  · intro h
    obtain ⟨inner, outer, hinner, houter, rfl⟩ := openTokens_of_ofTokens h
    obtain ⟨e, he, htokens⟩ := exists_openTokens_append hinner houter
    refine ⟨?_, List.replicate (outer.length + 1) .rparen, by simp, e, ?_⟩
    · rcases outer with - | ⟨next, outer⟩ <;> simp [openTokens]
    · rw [htokens, ofTokens_tokens he]
  · rintro ⟨hne, more, hmore, e, h⟩
    have hread := readOne_of_ofTokens h
    rcases hts : readOne ts with fault | ⟨e', rest⟩
    · by_cases hfault : fault = .openList
      · rw [ofTokens, hts, hfault]
      · rw [readOne_append_of_error hts hfault] at hread
        simp at hread
    · rw [readOne_append_of_ok hne hts] at hread
      obtain ⟨-, hrest⟩ := Prod.mk.inj (Except.ok.inj hread)
      exact absurd (List.append_eq_nil_iff.mp hrest).2 hmore

/-! ## Sources -/

/-- **A source is at fault in its words exactly when it has no tokens.** -/
theorem lexical_iff {source : String} {fault : Fault} :
    (ofSource source = .error fault ∧ fault.kind = .lexical) ↔
      Token.ofSource source = .error fault := by
  rw [ofSource]
  constructor
  · rintro ⟨h, hkind⟩
    split at h
    · next hsource => rw [hsource, Except.error.inj h]
    · rw [kind_of_ofTokens h] at hkind
      simp at hkind
  · intro h
    rw [h]
    exact ⟨rfl, Token.kind_of_ofSource h⟩

/-- **Which tokens are refused, and for what.**  The parser comes to the verdict of the counter on
any row of tokens without an end of the text among them, and no row that a source is divided into
has one.  No tokens are the empty list; tokens end inside a list exactly when more of them could
still make an expression.  A source that cannot be divided is refused for that before anything
else. -/
theorem ofTokens_verdict :
    (∀ ts : List Token, .finish ∉ ts → ∀ fault : Option Fault,
      Verdict ts fault ↔ refusal? (ofTokens ts) = fault) ∧
    ofTokens [] = .ok (.list []) ∧
    (∀ ts : List Token, ofTokens ts = .error .openList ↔
      ts ≠ [] ∧ ∃ more, more ≠ [] ∧ ∃ e, ofTokens (ts ++ more) = .ok e) ∧
    (∀ (source : String) (fault : Fault),
      (ofSource source = .error fault ∧ fault.kind = .lexical) ↔
        Token.ofSource source = .error fault) ∧
    (∀ (source : String) (ts : List Token), Token.ofSource source = .ok ts →
      .finish ∉ ts ∧ ofSource source = ofTokens ts) ∧
    Fault.strayClose.message.text = "unexpected list closing" ∧
    Fault.openList.message.text = "expected list closing" ∧
    Fault.leftover.message.text = "failed to parse all of input" ∧
    ∀ value : String, (Fault.stringToken value).message.text =
      "unsupported token type: string literal " ++ quote value := by
  refine ⟨?_, rfl, fun _ => openList_iff, fun _ _ => lexical_iff, ?_, rfl, rfl, rfl, ?_⟩
  · intro ts hts fault
    constructor
    · intro h
      exact (verdict_refusal? hts).unique h
    · rintro rfl
      exact verdict_refusal? hts
  · intro source ts h
    exact ⟨Token.finish_notMem_of_ofSource h, by rw [ofSource, h]⟩
  · intro value
    simp [Fault.message, Message.text, Message.render, String.join]

/-- A list that ends before a string leaves the string behind it; a string inside two lists decides
before either ends; a list that is opened only is one that a closing parenthesis completes; and a
string that is never closed comes before a stray parenthesis in front of it. -/
theorem ofTokens_verdict_mixed :
    refusal? (ofTokens [.lparen, .rparen, .string "s"]) = some .leftover ∧
      Verdict [.lparen, .lparen, .string "s", .rparen] (some (.stringToken "s")) ∧
      ofTokens [.lparen, .symbol "f"] = .error .openList ∧
      ofSource ") 'a" = .error (.openString "'a") ∧
      ofSource ")" = .error .strayClose := by
  have hplace : FirstDecides 0 [.lparen, .rparen, .string "s"] 1 := by
    refine ⟨⟨.rparen, rfl, .inr rfl⟩, fun j hj => ?_⟩
    obtain rfl : j = 0 := by omega
    simp [Token.decides_zero, Token.step]
  have hstray : Token.ofSource ")" = .ok [.rparen] := by cbv
  have hopen : Token.ofSource ") 'a" = .error (.openString "'a") := by cbv
  refine ⟨?_, ?_, ?_, ?_, ?_⟩
  · exact (ofTokens_verdict.1 _ (by simp) _).mp (.decided hplace)
  · exact (ofTokens_verdict.1 _ (by simp) _).mpr rfl
  · exact (ofTokens_verdict.2.2.1 _).mpr ⟨by simp, [.rparen], by simp, _, rfl⟩
  · exact ((ofTokens_verdict.2.2.2.1 _ _).mpr hopen).1
  · exact (ofTokens_verdict.2.2.2.2.1 _ _ hstray).2

end Expr

end Lisplet
