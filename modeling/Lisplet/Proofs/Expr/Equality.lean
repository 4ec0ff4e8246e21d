import Lisplet.Expr.Printer
import Mathlib

/-!
# Proofs/Expr/Equality — what equality of expressions sees

Equality is the same as having one bare form, where the two zeros are one number, a `lambda` has no
scope and a builtin no primitive of its own (`beq_iff`).  So it is an equivalence of the expressions
without undefined numbers.  All three written forms are those of the bare form, and none of them
tells equal expressions apart: `equality_is_equivalence`.
-/

namespace Lisplet

/-! ## Numbers -/

/-- The number that equality sees: the two zeros are one. -/
def bareNumber (x : Float) : Float := if x = -0 then 0 else x

theorem zero_ne_neg_zero : (0 : Float) ≠ -0 := by decide

theorem bareNumber_eq_iff {x y : Float} :
    bareNumber x = bareNumber y ↔ x = y ∨ x = 0 ∧ y = -0 ∨ x = -0 ∧ y = 0 := by
  unfold bareNumber
  split_ifs with hx hy hy
  · simp [hx, hy]
  · simp [hx, hy, Ne.symm hy, zero_ne_neg_zero, eq_comm]
  · simp [hy, hx]
  · simp [hx, hy]

/-- **Equality of numbers**: both are defined, and they are one number up to the sign of zero. -/
theorem beq_number_iff {x y : Float} :
    (x == y) = true ↔ x.isNaN = false ∧ y.isNaN = false ∧ bareNumber x = bareNumber y := by
  simp only [Float.beq_iff_ne_nan_and_eq, Float.isNaN_eq_decide_eq_nan, decide_eq_false_iff_not,
    bareNumber_eq_iff]

theorem numberText_bareNumber (x : Float) : numberText (bareNumber x) = numberText x := by
  unfold bareNumber
  split
  · next h => rw [h]; rfl
  · rfl

namespace Expr

/-! ## Bare expressions -/

/-- **An induction on expressions**, with all elements of a list at once; nothing is supposed of the
values in the scope of a `lambda`. -/
@[elab_as_elim]
theorem induct {motive : Expr → Prop} (number : ∀ x, motive (.number x))
    (symbol : ∀ name, motive (.symbol name))
    (list : ∀ es, (∀ e ∈ es, motive e) → motive (.list es))
    (lambda : ∀ parameters body captured, motive body → motive (.lambda parameters body captured))
    (builtin : ∀ name primitive, motive (.builtin name primitive)) : ∀ e, motive e
  | .number x => number x
  | .symbol name => symbol name
  | .list es => list es fun e _ => induct number symbol list lambda builtin e
  | .lambda parameters body captured =>
    lambda parameters body captured (induct number symbol list lambda builtin body)
  | .builtin name primitive => builtin name primitive

mutual

/-- **What equality sees of an expression**: zeros have no sign, a `lambda` has no scope, and all
builtins have the same primitive. -/
def bare : Expr → Expr
  | .number x => .number (bareNumber x)
  | .symbol name => .symbol name
  | .list es => .list (bareAll es)
  | .lambda ps body _ => .lambda ps (bare body) []
  | .builtin name _ => .builtin name .add

/-- What equality sees of the elements of a list. -/
def bareAll : List Expr → List Expr
  | [] => []
  | e :: es => bare e :: bareAll es

end

@[simp] theorem bareAll_eq_map (es : List Expr) : bareAll es = es.map bare := by
  induction es with
  | nil => rfl
  | cons e es ih => simp [bareAll, ih]

/-- **An expression without undefined numbers**; those in the scope of a `lambda` do not count. -/
inductive Defined : Expr → Prop
  | number {x : Float} : x.isNaN = false → Defined (.number x)
  | symbol {name : String} : Defined (.symbol name)
  | list {es : List Expr} : (∀ e ∈ es, Defined e) → Defined (.list es)
  | lambda {parameters : List String} {body : Expr} {captured : Scope} :
      Defined body → Defined (.lambda parameters body captured)
  | builtin {name : String} {primitive : Primitive} : Defined (.builtin name primitive)

@[simp] theorem defined_number_iff {x : Float} : (number x).Defined ↔ x.isNaN = false :=
  ⟨fun | .number h => h, .number⟩

@[simp] theorem defined_symbol (name : String) : (symbol name).Defined := .symbol

@[simp] theorem defined_builtin (name : String) (primitive : Primitive) :
    (builtin name primitive).Defined := .builtin

@[simp] theorem defined_list_iff {es : List Expr} : (list es).Defined ↔ ∀ e ∈ es, e.Defined :=
  ⟨fun | .list h => h, .list⟩

@[simp] theorem defined_lambda_iff {parameters : List String} {body : Expr} {captured : Scope} :
    (lambda parameters body captured).Defined ↔ body.Defined :=
  ⟨fun | .lambda h => h, .lambda⟩

/-! ## Equality is having one bare form -/

section

variable {x y : Float} {name name' : String} {xs ys : List Expr} {ps qs : List String}
  {body body' : Expr} {captured captured' : Scope} {primitive primitive' : Primitive}

theorem beq_number : (number x == number y) = (x == y) := rfl

theorem beq_symbol : (symbol name == symbol name') = (name == name') := rfl

theorem beq_list : (list xs == list ys) = beqList xs ys := rfl

theorem beq_lambda : (lambda ps body captured == lambda qs body' captured') =
    (ps == qs && body == body') := rfl

theorem beq_builtin : (builtin name primitive == builtin name' primitive') = (name == name') := rfl

end

/-- Rows are equal if they are so element by element. -/
theorem beqList_iff_forall₂ {xs ys : List Expr} :
    beqList xs ys = true ↔ List.Forall₂ (fun x y => (x == y) = true) xs ys := by
  induction xs generalizing ys with
  | nil => cases ys <;> simp [beqList]
  | cons x xs ih =>
    cases ys with
    | nil => simp [beqList]
    | cons y ys =>
      rw [beqList, Bool.and_eq_true, ih, List.forall₂_cons]
      rfl

theorem forall₂_beq_iff {xs ys : List Expr}
    (h : ∀ x ∈ xs, ∀ y, (x == y) = true ↔ x.Defined ∧ y.Defined ∧ x.bare = y.bare) :
    List.Forall₂ (fun x y => (x == y) = true) xs ys ↔
      (∀ x ∈ xs, x.Defined) ∧ (∀ y ∈ ys, y.Defined) ∧ xs.map bare = ys.map bare := by
  induction xs generalizing ys with
  | nil => cases ys <;> simp
  | cons x xs ih =>
    obtain ⟨hx, hxs⟩ := List.forall_mem_cons.mp h
    cases ys with
    | nil => simp
    | cons y ys =>
      rw [List.forall₂_cons, hx, ih hxs, List.forall_mem_cons, List.forall_mem_cons, List.map_cons,
        List.map_cons, List.cons.injEq]
      tauto

/-- **Expressions are equal exactly if no number in them is undefined and equality sees the same of
both.** -/
theorem beq_iff {a b : Expr} :
    (a == b) = true ↔ a.Defined ∧ b.Defined ∧ a.bare = b.bare := by
  induction a using induct generalizing b with
  | number x =>
    cases b with
    | number y => rw [beq_number, beq_number_iff, defined_number_iff, defined_number_iff, bare, bare,
        number.injEq]
    | _ => simp [BEq.beq, beq, bare]
  | symbol name =>
    cases b with
    | symbol name' => simp [beq_symbol, bare]
    | _ => simp [BEq.beq, beq, bare]
  | list xs ih =>
    cases b with
    | list ys =>
      rw [beq_list, beqList_iff_forall₂, forall₂_beq_iff fun x hx _ => ih x hx]
      simp [bare]
    | _ => simp [BEq.beq, beq, bare]
  | lambda ps body captured ih =>
    cases b with
    | lambda qs body' captured' =>
      rw [beq_lambda, Bool.and_eq_true, ih]
      simp only [beq_iff_eq, defined_lambda_iff, bare, lambda.injEq, and_true]
      tauto
    | _ => simp [BEq.beq, beq, bare]
  | builtin name primitive =>
    cases b with
    | builtin name' primitive' => simp [beq_builtin, bare]
    | _ => simp [BEq.beq, beq, bare]

/-! ## The written forms of bare expressions -/

/-- Writing the bare forms of the elements of a list is writing the elements. -/
theorem map_map_bare {form : Expr → String} {es : List Expr}
    (h : ∀ e ∈ es, form e.bare = form e) : (es.map bare).map form = es.map form := by
  rw [List.map_map]
  exact List.map_congr_left h

theorem source_bare (e : Expr) : e.bare.source = e.source := by
  induction e using induct with
  | number x => exact numberText_bareNumber x
  | symbol | builtin => rfl
  | list es ih =>
    rw [bare, source, source, bareAll_eq_map, sources_eq_map, sources_eq_map, map_map_bare ih]
  | lambda ps body captured ih => rw [bare, source, source, ih]

theorem label_bare (e : Expr) : e.bare.label = e.label := by
  induction e using induct with
  | number x => rw [bare, label_number, label_number, numberText_bareNumber]
  | symbol | builtin => rfl
  | list es ih =>
    rw [bare, label_list, label_list, bareAll_eq_map, map_map_bare ih]
  | lambda ps body captured ih => rw [bare, label_lambda, label_lambda, ih]

theorem outline_bare (e : Expr) (depth : Int) : e.bare.outline depth = e.outline depth := by
  induction e using induct generalizing depth with
  | number x => exact congrArg (margin depth ++ ·) (label_bare (.number x))
  | symbol | builtin => rfl
  | list es ih =>
    cases es with
    | nil => rfl
    | cons e es =>
      have hhead := ih e List.mem_cons_self (depth + 1)
      have hrest : (es.map bare).map (outline (depth + 1)) = es.map (outline (depth + 1)) :=
        map_map_bare fun e he => ih e (List.mem_cons_of_mem _ he) (depth + 1)
      rw [bare, bareAll, bareAll_eq_map, outline, outline, outlines_eq_map, outlines_eq_map, hhead,
        hrest]
  | lambda ps body captured _ =>
    exact congrArg (margin depth ++ ·) (label_bare (.lambda ps body captured))

/-! ## Equality is an equivalence that no written form tells apart -/

theorem equivalence_beq :
    Equivalence fun a b : {e : Expr // e.Defined} => (a.1 == b.1) = true where
  refl a := beq_iff.mpr ⟨a.2, a.2, rfl⟩
  symm h := by
    obtain ⟨ha, hb, hbare⟩ := beq_iff.mp h
    exact beq_iff.mpr ⟨hb, ha, hbare.symm⟩
  trans h h' := by
    obtain ⟨ha, -, hbare⟩ := beq_iff.mp h
    obtain ⟨-, hc, hbare'⟩ := beq_iff.mp h'
    exact beq_iff.mpr ⟨ha, hc, hbare.trans hbare'⟩

/-- Equal expressions are written alike in all three forms. -/
theorem written_eq_of_beq {a b : Expr} (h : (a == b) = true) :
    a.source = b.source ∧ a.label = b.label ∧ ∀ depth, a.outline depth = b.outline depth := by
  obtain ⟨-, -, hbare⟩ := beq_iff.mp h
  refine ⟨?_, ?_, fun depth => ?_⟩
  · rw [← source_bare a, hbare, source_bare]
  · rw [← label_bare a, hbare, label_bare]
  · rw [← outline_bare a, hbare, outline_bare]

/-- **Equality is an equivalence that no written form tells apart**, on the expressions without
undefined numbers.  It does not see the scope of a `lambda`, the primitive of a builtin and the sign
of zero, and equal expressions have the same source form, the same label and at every depth the same
outline. -/
theorem equality_is_equivalence :
    Equivalence (fun a b : {e : Expr // e.Defined} => (a.1 == b.1) = true) ∧
      (∀ (parameters : List String) (body : Expr) (captured captured' : Scope), body.Defined →
        (lambda parameters body captured == lambda parameters body captured') = true) ∧
      (∀ (name : String) (primitive primitive' : Primitive),
        (builtin name primitive == builtin name primitive') = true) ∧
      (number 0 == number (-0)) = true ∧
      ∀ a b : Expr, (a == b) = true →
        a.source = b.source ∧ a.label = b.label ∧ ∀ depth, a.outline depth = b.outline depth := by
  have hlambda (parameters : List String) (body : Expr) (captured captured' : Scope)
      (hbody : body.Defined) :
      (lambda parameters body captured == lambda parameters body captured') = true :=
    beq_iff.mpr ⟨.lambda hbody, .lambda hbody, rfl⟩
  have hbuiltin (name : String) (primitive primitive' : Primitive) :
      (builtin name primitive == builtin name primitive') = true :=
    beq_iff.mpr ⟨.builtin, .builtin, rfl⟩
  exact ⟨equivalence_beq, hlambda, hbuiltin, rfl, fun _ _ => written_eq_of_beq⟩

/-- A `lambda` beside itself in another scope, and a list of a zero and a `lambda` beside one with
zeros of the other sign. -/
theorem equality_is_equivalence_zeros :
    let scope : Scope := [[("x", number 1)]]
    let a := list [number 0, lambda ["x"] (number (-0)) []]
    let b := list [number (-0), lambda ["x"] (number 0) scope]
    (number 0).Defined ∧ a.Defined ∧ b.Defined ∧
      (lambda ["x"] (number 0) [] == lambda ["x"] (number 0) scope) = true ∧
      (a == b) = true ∧ (b == a) = true ∧
      a.source = b.source ∧ a.label = b.label ∧ a.outline 1 = b.outline 1 := by
  intro scope a b
  have hzero : (number 0).Defined := .number (by decide)
  have hminus : (number (-0)).Defined := .number (by decide)
  have ha : a.Defined := .list (by simp [hzero, hminus])
  have hb : b.Defined := .list (by simp [hzero, hminus])
  have hab : (a == b) = true := rfl
  obtain ⟨hequivalence, hlambda, -, -, hwritten⟩ := equality_is_equivalence
  obtain ⟨hsource, hlabel, houtline⟩ := hwritten a b hab
  exact ⟨hzero, ha, hb, hlambda ["x"] (number 0) [] scope hzero, hab,
    @hequivalence.symm ⟨a, ha⟩ ⟨b, hb⟩ hab, hsource, hlabel, houtline 1⟩

end Expr

end Lisplet
