import Lisplet.Expr.Printer
import Lisplet.Proofs.Double.Written
import Lisplet.Proofs.Expr.Readable

/-!
# Proofs/Expr/Outline — the outline and the label of an expression

An outline spreads the label over lines, with a comma behind every element of a list but the last
(`toList_outline_eq_dropLast`).  Its lines are put together again in two ways: with a wider margin
before each they are the outline some steps deeper, and without margins, one behind the other, they
are the label.  Both change the lines of a list alike (`relined_outline`), because every element
ends with a parenthesis and the comma behind it is the only one that can end a line, whatever commas
the names have (`outline_agrees_with_label`).
-/

namespace Lisplet

/-! ## The lines of a text -/

/-- **The lines of a text put together again**, each of them changed, with something between. -/
def relined (between : List Char) (change : List Char → List Char) (cs : List Char) : List Char :=
  between.intercalate ((cs.splitOn '\n').map change)

/-- **A text with a margin** of some width before each of its lines. -/
def indented (width : Nat) (text : String) : String :=
  String.ofList (relined ['\n'] (List.replicate width ' ' ++ ·) text.toList)

/-- A line without the spaces at its front, and with one behind it if it ends with a comma. -/
def glued (line : List Char) : List Char :=
  let bare := line.dropWhile (· == ' ')
  if bare.getLast? = some ',' then bare ++ [' '] else bare

/-- **A text put on one line**: its lines one behind the other, without the spaces at their front,
and with one space after each that ends with a comma. -/
def onOneLine (text : String) : String := String.ofList (relined [] glued text.toList)

theorem intercalate_append_of_ne_nil {α : Type} {between : List α} {rows rows' : List (List α)}
    (h : rows ≠ []) (h' : rows' ≠ []) : between.intercalate (rows ++ rows') =
      between.intercalate rows ++ between ++ between.intercalate rows' := by
  induction rows with
  | nil => exact absurd rfl h
  | cons row rows ih =>
    rcases eq_or_ne rows [] with rfl | hne
    · rw [List.singleton_append, List.intercalate_cons_of_ne_nil h', List.intercalate_singleton]
    · rw [List.cons_append, List.intercalate_cons_of_ne_nil (by simp [hne]), ih hne,
        List.intercalate_cons_of_ne_nil hne]
      simp only [List.append_assoc]

section Relined

variable {between comma : List Char} {change : List Char → List Char}

theorem relined_of_notMem {line : List Char} (h : '\n' ∉ line) :
    relined between change line = change line := by
  rw [relined, List.splitOn_eq_singleton h, List.map_singleton, List.intercalate_singleton]

/-- The end of a line parts the lines in front of it from those behind it. -/
theorem relined_append_cons (cs ds : List Char) : relined between change (cs ++ '\n' :: ds) =
    relined between change cs ++ between ++ relined between change ds := by
  have hsplit (cs : List Char) : (cs.splitOn '\n').map change ≠ [] := by
    rw [ne_eq, List.map_eq_nil_iff]
    exact List.splitOn_ne_nil '\n' cs
  rw [relined, List.splitOn_append_cons_self, List.map_append,
    intercalate_append_of_ne_nil (hsplit cs) (hsplit ds), relined, relined]

variable (hchange : ∀ line, change (line ++ [')', ',']) = change (line ++ [')']) ++ comma)

include hchange

/-- What comes behind the last parenthesis comes behind the last line. -/
theorem relined_append_comma (cs : List Char) : relined between change (cs ++ [')', ',']) =
    relined between change (cs ++ [')']) ++ comma := by
  by_cases hmem : '\n' ∈ cs
  · -- Only the line behind the last line end is changed.
    obtain ⟨line, front, hcs, hline⟩ := List.eq_append_cons_of_mem (List.mem_reverse.mpr hmem)
    obtain rfl : cs = front.reverse ++ '\n' :: line.reverse := by
      rw [← cs.reverse_reverse, hcs, List.reverse_append, List.reverse_cons, List.append_assoc,
        List.singleton_append]
    have hbehind (tail : List Char) (htail : '\n' ∉ tail) :
        relined between change (front.reverse ++ '\n' :: line.reverse ++ tail) =
          relined between change front.reverse ++ between ++ change (line.reverse ++ tail) := by
      have hlast : '\n' ∉ line.reverse ++ tail := by simp [hline, htail]
      rw [List.append_assoc, List.cons_append, relined_append_cons, relined_of_notMem hlast]
    rw [hbehind _ (by decide), hbehind _ (by decide), hchange, List.append_assoc _ _ comma]
  · rw [relined_of_notMem (by simpa using hmem), relined_of_notMem (by simpa using hmem), hchange]

/-- Texts that end with a parenthesis, with a comma and a line end between them, are changed one by
one. -/
theorem relined_intercalate {rows : List (List Char)}
    (hrows : ∀ cs ∈ rows, ∃ front, cs = front ++ [')']) (hne : rows ≠ []) :
    relined between change ([',', '\n'].intercalate rows) =
      (comma ++ between).intercalate (rows.map (relined between change)) := by
  induction rows with
  | nil => exact absurd rfl hne
  | cons cs rows ih =>
    obtain ⟨⟨front, rfl⟩, hrest⟩ := List.forall_mem_cons.mp hrows
    rcases eq_or_ne rows [] with rfl | hne
    · rw [List.map_singleton, List.intercalate_singleton, List.intercalate_singleton]
    · have hcomma : front ++ [')'] ++ [',', '\n'] ++ [',', '\n'].intercalate rows =
          (front ++ [')', ',']) ++ '\n' :: [',', '\n'].intercalate rows := by simp
      rw [List.intercalate_cons_of_ne_nil hne, hcomma, relined_append_cons,
        relined_append_comma hchange, ih hrest hne, List.map_cons,
        List.intercalate_cons_of_ne_nil (by simpa using hne), List.append_assoc _ comma between]

end Relined

/-! ## Gluing lines -/

theorem dropWhile_append_cons_of_ne {c : Char} (hc : c ≠ ' ') (cs ds : List Char) :
    (cs ++ c :: ds).dropWhile (· == ' ') = cs.dropWhile (· == ' ') ++ c :: ds := by
  induction cs with
  | nil => simp [hc]
  | cons a cs ih =>
    rw [List.cons_append, List.dropWhile_cons, List.dropWhile_cons, ih]
    split <;> rfl

/-- A comma behind a parenthesis is followed by a space. -/
theorem glued_append_comma (line : List Char) :
    glued (line ++ [')', ',']) = glued (line ++ [')']) ++ [',', ' '] := by
  simp [glued, dropWhile_append_cons_of_ne]

/-- A line that ends with no comma is glued as it is, whatever its margin. -/
theorem glued_margin_append (depth : Int) {c : Char} (hc : c ≠ ' ') {line : List Char}
    (hlast : (c :: line).getLast? ≠ some ',') :
    glued ((Expr.margin depth).toList ++ c :: line) = c :: line := by
  have hmargin : (Expr.margin depth).toList.dropWhile (· == ' ') = [] := by
    simp [Expr.margin]
  rw [glued, dropWhile_append_cons_of_ne hc, hmargin, List.nil_append, if_neg hlast]

/-! ## The outline by its lines -/

namespace Expr

theorem toList_outline_cons (depth : Int) (e : Expr) (es : List Expr) :
    ((list (e :: es)).outline depth).toList =
      (margin depth).toList ++ "List(".toList ++ '\n' ::
        ([',', '\n'].intercalate ((e :: es).map fun e => (e.outline (depth + 1)).toList) ++
          '\n' :: ((margin depth).toList ++ [')'])) := by
  simp [outline, String.toList_intercalate, Function.comp_def]

theorem flatMap_eq_intercalate {rows : List (List Char)} (h : rows ≠ []) :
    rows.flatMap (fun cs => '\n' :: cs ++ [',']) = '\n' :: [',', '\n'].intercalate rows ++ [','] := by
  induction rows with
  | nil => exact absurd rfl h
  | cons cs rows ih =>
    rcases eq_or_ne rows [] with rfl | hne
    · simp
    · rw [List.flatMap_cons, ih hne, List.intercalate_cons_of_ne_nil hne]
      simp

/-- **The outline of a list, accumulated**: a line end before and a comma behind every element, and
the last comma cut off again. -/
theorem toList_outline_eq_dropLast (depth : Int) (e : Expr) (es : List Expr) :
    ((list (e :: es)).outline depth).toList =
      ((margin depth).toList ++ "List(".toList ++
          ((e :: es).map fun e => (e.outline (depth + 1)).toList).flatMap
            fun cs => '\n' :: cs ++ [',']).dropLast ++
        '\n' :: ((margin depth).toList ++ [')']) := by
  rw [flatMap_eq_intercalate (by simp), ← List.append_assoc, List.dropLast_concat,
    toList_outline_cons, List.append_assoc _ (_ :: _), List.cons_append]

theorem exists_append_paren_label (e : Expr) : ∃ front, e.label.toList = front ++ [')'] := by
  cases e <;> simp only [label_number, label_symbol, label_list, label_lambda, label_builtin,
    String.toList_append] <;> exact ⟨_, rfl⟩

/-- Every outline ends with a parenthesis. -/
theorem exists_append_paren_outline (e : Expr) (depth : Int) :
    ∃ front, (e.outline depth).toList = front ++ [')'] := by
  match e with
  | .list (e :: es) =>
    rw [toList_outline_cons]
    simp only [← List.append_assoc, ← List.cons_append]
    exact ⟨_, rfl⟩
  | .list [] | .number _ | .symbol _ | .lambda .. | .builtin .. =>
    rw [outline, String.toList_append]
    · obtain ⟨front, hfront⟩ := exists_append_paren_label _
      exact ⟨(margin depth).toList ++ front, by rw [hfront, List.append_assoc]⟩
    · simp

theorem newline_notMem_margin (depth : Int) : '\n' ∉ (margin depth).toList := by
  simp [margin, List.mem_replicate]

variable {between comma : List Char} {change : List Char → List Char}

/-- **The outline of a list, put together again**: its head, its elements and its end. -/
theorem relined_outline
    (hchange : ∀ line, change (line ++ [')', ',']) = change (line ++ [')']) ++ comma)
    (depth : Int) (e : Expr) (es : List Expr) :
    relined between change ((list (e :: es)).outline depth).toList =
      change ((margin depth).toList ++ "List(".toList) ++ between ++
        ((comma ++ between).intercalate ((e :: es).map fun e =>
            relined between change (e.outline (depth + 1)).toList) ++
          between ++ change ((margin depth).toList ++ [')'])) := by
  have hmargin := newline_notMem_margin depth
  have hrows : ∀ cs ∈ (e :: es).map fun e => (e.outline (depth + 1)).toList,
      ∃ front, cs = front ++ [')'] := by
    intro cs hcs
    obtain ⟨e', -, rfl⟩ := List.mem_map.mp hcs
    exact e'.exists_append_paren_outline (depth + 1)
  have hhead : '\n' ∉ (margin depth).toList ++ "List(".toList := by simp [hmargin]
  have hend : '\n' ∉ (margin depth).toList ++ [')'] := by simp [hmargin]
  rw [toList_outline_cons, relined_append_cons, relined_append_cons, relined_of_notMem hhead,
    relined_of_notMem hend, relined_intercalate hchange hrows (List.cons_ne_nil _ _), List.map_map]
  rfl

/-! ## The leaves of an outline -/

/-- The written form of a finite number has no line end. -/
theorem newline_notMem_numberText {x : Float} (hx : x.isFinite = true) :
    '\n' ∉ (numberText x).toList := by
  obtain ⟨n, hn, htext, -, -⟩ := Double.exists_numeral_numberText hx
  rw [htext]
  intro hmem
  exact absurd (Token.isSymbolChar_of_mem_chars hn _ hmem) (by decide)

theorem newline_notMem_name {name : String} (h : IsName name) : '\n' ∉ name.toList :=
  fun hmem => absurd (h.plain _ hmem).1 (by decide)

/-- Behind any margin a label is glued as it is. -/
theorem glued_label (depth : Int) (e : Expr) :
    glued ((margin depth).toList ++ e.label.toList) = e.label.toList := by
  have hlast : e.label.toList.getLast? ≠ some ',' := by
    obtain ⟨front, hfront⟩ := e.exists_append_paren_label
    simp [hfront]
  obtain ⟨c, line, hc, hlabel⟩ : ∃ c line, c ≠ ' ' ∧ e.label.toList = c :: line := by
    cases e <;> simp only [label_number, label_symbol, label_list, label_lambda, label_builtin,
      String.toList_append] <;> exact ⟨_, _, by decide, List.cons_append⟩
  rw [hlabel] at hlast ⊢
  exact glued_margin_append depth hc hlast

/-- A leaf of an outline: at every depth it is written as its label behind the margin. -/
def IsLeaf (e : Expr) : Prop := ∀ depth : Int, e.outline depth = margin depth ++ e.label

/-- **What outlines put together again come to**: the changed line for every leaf, and for every
list its changed head and end with the forms of the elements between. -/
structure RelinesTo (between comma : List Char) (change : List Char → List Char)
    (form : Nat → Expr → List Char) : Prop where
  separator (line : List Char) : change (line ++ [')', ',']) = change (line ++ [')']) ++ comma
  leaf (depth : Nat) (e : Expr) : e.IsLeaf →
    form depth e = change ((margin depth).toList ++ e.label.toList)
  list (depth : Nat) (e : Expr) (es : List Expr) : form depth (.list (e :: es)) =
    change ((margin depth).toList ++ "List(".toList) ++ between ++
      ((comma ++ between).intercalate ((e :: es).map (form (depth + 1))) ++
        between ++ change ((margin depth).toList ++ [')']))

section RelinesTo

variable {form : Nat → Expr → List Char}

/-- A leaf whose label has no line end takes one line. -/
theorem RelinesTo.relined_leaf (h : RelinesTo between comma change form) {depth : Nat} {e : Expr}
    (hleaf : e.IsLeaf) (hlabel : '\n' ∉ e.label.toList) :
    relined between change (e.outline depth).toList = form depth e := by
  have hline : '\n' ∉ (margin depth).toList ++ e.label.toList := by
    simp [newline_notMem_margin, hlabel]
  rw [hleaf depth, String.toList_append, relined_of_notMem hline, h.leaf depth e hleaf]

/-- **Every readable expression has an outline that comes to its form.** -/
theorem RelinesTo.relined_outline (h : RelinesTo between comma change form) {e : Expr}
    (he : e.Readable) (depth : Nat) :
    relined between change (e.outline depth).toList = form depth e := by
  induction he generalizing depth with
  | number hx =>
    have hlabel := newline_notMem_numberText hx
    exact h.relined_leaf (fun _ => rfl) (by simp [label_number, hlabel])
  | symbol hname =>
    have hlabel := newline_notMem_name hname
    exact h.relined_leaf (fun _ => rfl) (by simp [label_symbol, hlabel])
  | @list es _ ih =>
    cases es with
    | nil => exact h.relined_leaf (fun _ => rfl) (by simp [label_list])
    | cons e es =>
      have hforms : ((e :: es).map fun e => relined between change (e.outline (depth + 1)).toList) =
          (e :: es).map (form (depth + 1)) :=
        List.map_congr_left fun e he => ih e he (depth + 1)
      rw [Expr.relined_outline h.separator, hforms, h.list]

end RelinesTo

/-! ## The two ways -/

theorem toList_margin_add (depth width : Nat) : (margin ((depth + width : Nat) : Int)).toList =
    List.replicate (4 * width) ' ' ++ (margin depth).toList := by
  simp only [margin, String.toList_ofList, Int.toNat_natCast, Nat.mul_add, Nat.add_comm,
    List.replicate_append_replicate]

theorem toList_label_list (es : List Expr) : (label (.list es)).toList =
    "List(".toList ++ ([',', ' '].intercalate (es.map fun e => e.label.toList) ++ [')']) := by
  simp [label_list, String.toList_intercalate, Function.comp_def]

/-- With margins before their lines the outlines come to the outlines some steps deeper. -/
theorem relinesTo_outline_add (width : Nat) :
    RelinesTo ['\n'] [','] (List.replicate (4 * width) ' ' ++ ·)
      fun depth e => (e.outline ((depth + width : Nat) : Int)).toList where
  separator line := by simp
  leaf depth e hleaf := by
    rw [hleaf, String.toList_append, toList_margin_add, List.append_assoc]
  list depth e es := by
    have hnext : ((depth + width : Nat) : Int) + 1 = ((depth + 1 + width : Nat) : Int) := by
      omega
    simp only [toList_outline_cons, hnext, toList_margin_add, List.append_assoc,
      List.cons_append, List.nil_append]

/-- Without margins, one line behind the other, the outlines come to the labels. -/
theorem relinesTo_label : RelinesTo [] [',', ' '] glued fun _ e => e.label.toList where
  separator := glued_append_comma
  leaf depth e _ := (glued_label depth e).symm
  list depth e es := by
    have hhead : glued ((margin depth).toList ++ "List(".toList) = "List(".toList :=
      glued_margin_append depth (by decide) (by decide)
    have hend : glued ((margin depth).toList ++ [')']) = [')'] :=
      glued_margin_append depth (by decide) (by decide)
    simp only [toList_label_list, hhead, hend, List.append_nil]

/-- **The outline and the label tell of one tree.**  Of whatever a text reads as, the outline at a
depth is the one at the edge with four spaces a step before each line, and its lines without their
margins, one behind the other and with a space behind each comma that ends one, are the label. -/
theorem outline_agrees_with_label {text : String} {e : Expr} (h : ofSource text = .ok e) (k : Nat) :
    e.outline k = indented (4 * k) (e.outline 0) ∧ onOneLine (e.outline k) = e.label := by
  have he := readable_of_ofSource h
  have hdeeper := (relinesTo_outline_add k).relined_outline he 0
  have hlabel := relinesTo_label.relined_outline he k
  rw [Nat.zero_add] at hdeeper
  constructor
  · exact String.ofList_toList.symm.trans (congrArg String.ofList hdeeper.symm)
  · exact (congrArg String.ofList hlabel).trans String.ofList_toList

/-- A list whose first name ends with a comma, one step from the edge. -/
theorem outline_agrees_with_label_comma :
    ∃ e, ofSource "(f, () (x))" = .ok e ∧
      e.outline 0 = "List(\n    Symbol(f,),\n    List(),\n    List(\n        Symbol(x)\n    )\n)" ∧
      e.outline 1 = indented 4 (e.outline 0) ∧
      onOneLine (e.outline 1) = "List(Symbol(f,), List(), List(Symbol(x)))" := by
  have hread : ofSource "(f, () (x))" =
      .ok (list [symbol "f,", list [], list [symbol "x"]]) := by cbv
  obtain ⟨hdeeper, hlabel⟩ := outline_agrees_with_label hread 1
  exact ⟨_, hread, rfl, hdeeper, hlabel.trans rfl⟩

end Expr

end Lisplet
