import Lisplet.Proofs.Token.Division
import Lisplet.Session.Entry

/-!
# Proofs/Token/Parens — parentheses of a text and of its tokens

The parentheses of a text are its tokens of that kind and those inside its strings.  So a text
without strings has exactly the parentheses of its tokens (`Division.filter_isParen`), and whether
it is unfinished can be told by its tokens (`isUnfinished_of_opens`): `Opens ts n` says that `ts`
has no string and opens `n` lists more than it closes.
-/

namespace Lisplet

/-- Whether a character is a parenthesis. -/
def isParen (c : Char) : Bool := c = '(' || c = ')'

theorem isParen_of_isSymbolChar {c : Char} (h : Token.isSymbolChar c = true) :
    isParen c = false := by
  obtain ⟨-, hopen, hclose, -, -⟩ := Token.isSymbolChar_iff.mp h
  simp [isParen, hopen, hclose]

theorem isParen_of_isBlank {c : Char} (h : isBlank c = true) : isParen c = false := by
  simp only [isParen, Bool.or_eq_false_iff, decide_eq_false_iff_not]
  constructor <;> rintro rfl <;> simp [isBlank] at h

theorem filter_isParen_of_forall {p : Char → Bool} {cs : List Char}
    (hp : ∀ c, p c = true → isParen c = false) (h : ∀ c ∈ cs, p c = true) :
    cs.filter isParen = [] :=
  List.filter_eq_nil_iff.mpr fun c hc => by simp [hp c (h c hc)]

/-! ## Texts without strings -/

namespace Token

/-- The parenthesis that a token is. -/
def paren? : Token → Option Char
  | .lparen => some '('
  | .rparen => some ')'
  | _ => none

/-- A word has the parenthesis of its token and no other, if it is no string. -/
theorem Lexeme.filter_isParen {t : Token} {word rest : List Char} (h : Lexeme t word rest)
    (hplain : ∀ value, t ≠ .string value) : word.filter isParen = t.paren?.toList := by
  cases h with
  | lparen => rfl
  | rparen => rfl
  | number hn =>
    exact filter_isParen_of_forall (fun _ => isParen_of_isSymbolChar) (isSymbolChar_of_mem_chars hn)
  | symbol hname =>
    exact filter_isParen_of_forall (fun _ => isParen_of_isSymbolChar) (isName_iff.mp hname).2.1
  | string => exact absurd rfl (hplain _)

/-- **A text without strings has the parentheses of its tokens**, in the same order. -/
theorem Division.filter_isParen {cs rest : List Char} {ts : List Token} {fault : Option Fault}
    (h : Division cs ts rest fault) (hfault : fault = none)
    (hplain : ∀ t ∈ ts, ∀ value, t ≠ .string value) :
    cs.filter isParen = ts.filterMap paren? := by
  induction h with
  | finish hblanks => exact filter_isParen_of_forall (fun _ => isParen_of_isBlank) hblanks.blank
  | stuck => simp at hfault
  | @word blanks word cs rest t ts fault hblanks hlexeme _ ih =>
    obtain ⟨ht, hts⟩ := List.forall_mem_cons.mp hplain
    rw [List.filter_append, List.filter_append, hlexeme.filter_isParen ht, ih hfault hts,
      filter_isParen_of_forall (fun _ => isParen_of_isBlank) hblanks.blank, List.nil_append]
    cases hparen : t.paren? <;> simp [hparen]

/-! ## Tokens that open lists -/

/-- **Tokens that open `n` lists**: there is no string among them, and of their parentheses `n` more
open than close. -/
structure Opens (ts : List Token) (n : Nat) : Prop where
  plain : ∀ t ∈ ts, ∀ value, t ≠ .string value
  count : (ts.filterMap paren?).count '(' = (ts.filterMap paren?).count ')' + n

namespace Opens

variable {ts ts' : List Token} {n n' : Nat}

theorem nil : Opens [] 0 := ⟨by simp, rfl⟩

theorem number (x : Float) : Opens [.number x] 0 := ⟨by simp, rfl⟩

theorem symbol (name : String) : Opens [.symbol name] 0 := ⟨by simp, rfl⟩

theorem lparen : Opens [.lparen] 1 := ⟨by simp, rfl⟩

theorem append (h : Opens ts n) (h' : Opens ts' n') : Opens (ts ++ ts') (n + n') where
  plain t ht := (List.mem_append.mp ht).elim (h.plain t) (h'.plain t)
  count := by
    rw [List.filterMap_append, List.count_append, List.count_append, h.count, h'.count]
    omega

/-- A closing parenthesis closes one of the lists. -/
theorem append_rparen (h : Opens ts (n + 1)) : Opens (ts ++ [.rparen]) n where
  plain t ht := by
    obtain ht | ht := List.mem_append.mp ht
    · exact h.plain t ht
    · simp [List.mem_singleton.mp ht]
  count := by
    have hcount := h.count
    simp only [List.filterMap_append, List.count_append]
    simp [paren?]
    omega

/-- A row of tokens that close what they open. -/
theorem flatten {rows : List (List Token)} (h : ∀ ts ∈ rows, Opens ts 0) :
    Opens rows.flatten 0 := by
  induction rows with
  | nil => exact nil
  | cons ts rows ih =>
    obtain ⟨hts, hrows⟩ := List.forall_mem_cons.mp h
    exact hts.append (ih hrows)

end Opens

/-- **A text is unfinished if its tokens open a list** that they do not close. -/
theorem isUnfinished_of_opens {source : String} {ts : List Token} {n : Nat}
    (hsource : ofSource source = .ok ts) (h : Opens ts n) :
    isUnfinished source = decide (0 < n) := by
  obtain ⟨rest, hdivision⟩ := division_of_ofSource hsource
  have hparens := hdivision.filter_isParen rfl h.plain
  have hcount := h.count
  rw [← hparens, List.count_filter rfl, List.count_filter rfl] at hcount
  rw [isUnfinished, hcount]
  simp

end Token

end Lisplet
