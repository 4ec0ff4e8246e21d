import Lisplet.Proofs.Eval.Program
import Lisplet.Proofs.Expr.RoundTrip

/-!
# Proofs/Eval/SourceForm — values that can be typed in again

A value is written as an expression that makes it, its `maker`: numbers and the empty list make
themselves, and a `lambda` is made by the call that names its parameters and its body.  For a value
of programs the maker is readable, so the source form of the value reads back as an equal expression
and that evaluates to an equal value, in the scope that programs start in
(`exists_evaluate_source`).  Only the primitives have a source form that is none.
-/

namespace Lisplet

/-! ## Equal expressions -/

namespace Expr

theorem exists_number_of_beq {e : Expr} {x : Float} (h : (e == number x) = true) :
    ∃ y, e = number y ∧ (y == x) = true := by
  cases e with
  | number y => exact ⟨y, rfl, h⟩
  | _ => simp [BEq.beq, beq] at h

theorem eq_symbol_of_beq {e : Expr} {name : String} (h : (e == symbol name) = true) :
    e = symbol name := by
  cases e with
  | symbol name' => exact congrArg symbol (beq_iff_eq.mp h)
  | _ => simp [BEq.beq, beq] at h

/-- What equals a list is a list of as many elements, equal one by one. -/
theorem exists_list_of_beq {e : Expr} {es : List Expr} (h : (e == list es) = true) :
    ∃ es', e = list es' ∧ List.Forall₂ (fun x y => (x == y) = true) es' es := by
  cases e with
  | list es' => exact ⟨es', rfl, beqList_iff_forall₂.mp h⟩
  | _ => simp [BEq.beq, beq] at h

/-- Only symbols equal symbols. -/
theorem eq_map_symbol_of_beq {es : List Expr} {names : List String}
    (h : List.Forall₂ (fun x y => (x == y) = true) es (names.map symbol)) :
    es = names.map symbol := by
  have hnames := (List.forall₂_map_right_iff.mp h).imp fun _ _ => eq_symbol_of_beq
  have heq : List.Forall₂ (· = ·) es (names.map symbol) := List.forall₂_map_right_iff.mpr hnames
  rwa [List.forall₂_eq_eq_eq] at heq

/-! ## What makes a value -/

/-- **The expression that a value is written as**: it makes a value of that form. -/
def maker : Expr → Expr
  | .lambda parameters body _ =>
    .list [.symbol Primitive.abstract.name, .list (parameters.map .symbol), body]
  | e => e

/-- A value is written as its maker is. -/
theorem source_maker (e : Expr) : e.maker.source = e.source := by
  cases e with
  | lambda parameters body captured =>
    have hopen : "(lambda (" = "(" ++ "lambda" ++ " " ++ "(" := rfl
    have hclose : ") " = ")" ++ " " := rfl
    simp only [maker, source, sources_eq_map, List.map_cons, List.map_nil, List.map_map,
      Function.comp_def, List.map_id', Primitive.name, String.intercalate_cons_cons,
      String.intercalate_singleton]
    rw [hopen, hclose]
    simp only [String.append_assoc]
  | _ => rfl

end Expr

/-- The maker of a value of programs can be read, if it is no primitive. -/
theorem ProgramValue.readable_maker {value : Expr} (h : ProgramValue value)
    (hvalue : ∀ name primitive, value ≠ .builtin name primitive) : value.maker.Readable := by
  cases h with
  | number hx => exact .number hx
  | nil => exact .list (by simp)
  | builtin => exact absurd rfl (hvalue _ _)
  | @lambda parameters body _ _ hparameters hbody =>
    have hhead : (Expr.symbol Primitive.abstract.name).Readable := .symbol (by decide)
    have hnames : (Expr.list (parameters.map .symbol)).Readable := by
      refine .list fun e he => ?_
      obtain ⟨name, hname, rfl⟩ := List.mem_map.mp he
      exact .symbol (hparameters name hname)
    exact .list (by simp [hhead, hnames, hbody])

/-- A call of the primitive that makes procedures makes one where programs start. -/
theorem evaluate_abstract (limit : Nat) (parameters : List String) (body : Expr) :
    evaluate (limit + 1)
        (.list [.symbol Primitive.abstract.name, .list (parameters.map .symbol), body]) .standard =
      .ok (.lambda parameters body Scope.standard) := by
  have hlookup : Scope.standard.lookup Primitive.abstract.name =
      .ok (.builtin Primitive.abstract.name .abstract) := rfl
  rw [evaluate_call, hlookup]
  simp [Outcome.ofFaulty, callProcedure, Primitive.call, Primitive.parameterNames_map_symbol]

/-- **What equals the maker of a value evaluates to an equal value** where programs start. -/
theorem ProgramValue.exists_evaluate_of_beq_maker {value e : Expr} (h : ProgramValue value)
    (hvalue : ∀ name primitive, value ≠ .builtin name primitive) (he : (e == value.maker) = true) :
    ∃ value', (∀ limit, evaluate (limit + 1) e .standard = .ok value') ∧
      (value' == value) = true := by
  cases h with
  | number =>
    obtain ⟨y, rfl, -⟩ := Expr.exists_number_of_beq he
    exact ⟨.number y, fun _ => rfl, he⟩
  | nil =>
    obtain ⟨es, rfl, hes⟩ := Expr.exists_list_of_beq he
    obtain rfl := List.forall₂_nil_right_iff.mp hes
    exact ⟨.list [], fun _ => rfl, rfl⟩
  | builtin => exact absurd rfl (hvalue _ _)
  | @lambda parameters body captured =>
    obtain ⟨es, rfl, hes⟩ := Expr.exists_list_of_beq he
    rcases hes with - | ⟨hhead, - | ⟨hgiven, - | ⟨hbody, - | -⟩⟩⟩
    obtain rfl := Expr.eq_symbol_of_beq hhead
    obtain ⟨names, rfl, hnames⟩ := Expr.exists_list_of_beq hgiven
    obtain rfl := Expr.eq_map_symbol_of_beq hnames
    refine ⟨_, fun limit => evaluate_abstract limit parameters _, ?_⟩
    exact Bool.and_eq_true_iff.mpr ⟨beq_self_eq_true parameters, hbody⟩

/-- **The source form of a value of programs can be typed in again**, if the value is no primitive:
it reads back, and evaluates to an equal value where programs start. -/
theorem ProgramValue.exists_evaluate_source {value : Expr} (h : ProgramValue value)
    (hvalue : ∀ name primitive, value ≠ .builtin name primitive) :
    ∃ e value', Expr.ofSource value.source = .ok e ∧
      (∀ limit, evaluate (limit + 1) e .standard = .ok value') ∧ (value' == value) = true := by
  obtain ⟨e, hread, he⟩ := Expr.exists_ofSource_source (h.readable_maker hvalue)
  rw [Expr.source_maker] at hread
  obtain ⟨value', hevaluate, heq⟩ := h.exists_evaluate_of_beq_maker hvalue he
  exact ⟨e, value', hread, hevaluate, heq⟩

/-! ## Values of sources -/

mutual

/-- **A scope of sources**: the one that programs start in, extended any number of times with
bindings of any names to values of sources. -/
inductive SourceScope : Scope → Prop
  | standard : SourceScope .standard
  | extend {scope : Scope} {bindings : List (String × Expr)} : SourceScope scope →
      (∀ b ∈ bindings, SourceValue b.2) → SourceScope (scope.extend bindings)

/-- **A value of a source**: what the source evaluates to in a scope of sources. -/
inductive SourceValue : Expr → Prop
  | intro {source : String} {e value : Expr} {scope : Scope} {limit : Nat} : SourceScope scope →
      Expr.ofSource source = .ok e → evaluate limit e scope = .ok value → SourceValue value

end

mutual

/-- Scopes of sources are scopes of programs. -/
theorem SourceScope.programScope {scope : Scope} : SourceScope scope → ProgramScope scope
  | .standard => .standard
  | .extend hscope hbindings =>
    .extend hscope.programScope fun b hb => (hbindings b hb).programValue

/-- Values of sources are values of programs. -/
theorem SourceValue.programValue {value : Expr} : SourceValue value → ProgramValue value
  | .intro hscope hread hvalue =>
    (safe_evaluate (Expr.readable_of_ofSource hread) hscope.programScope _).of_ok hvalue

end

/-- **What is printed can be typed in again.**  The value of a source in any scope of sources, if it
is no primitive, has a source form that reads back, and evaluates to an equal value where programs
start. -/
theorem source_evaluates {source : String} {e value : Expr} {scope : Scope} {limit : Nat}
    (hscope : SourceScope scope) (hread : Expr.ofSource source = .ok e)
    (hvalue : evaluate limit e scope = .ok value)
    (hprimitive : ∀ name primitive, value ≠ .builtin name primitive) :
    ∃ e' value', Expr.ofSource value.source = .ok e' ∧
      (∀ limit', 0 < limit' → evaluate limit' e' .standard = .ok value') ∧
      (value' == value) = true := by
  have hprogram := (SourceValue.intro hscope hread hvalue).programValue
  obtain ⟨e', value', hread', hevaluate, heq⟩ := hprogram.exists_evaluate_source hprimitive
  refine ⟨e', value', hread', fun limit' hlimit => ?_, heq⟩
  obtain ⟨n, rfl⟩ := Nat.exists_eq_add_one.mpr hlimit
  exact hevaluate n

/-- A procedure that a call of `mk` made, with one parameter twice and another scope than the one
programs start in around it, is typed in again. -/
theorem source_evaluates_closure :
    ∃ (scope : Scope) (value : Expr), SourceScope scope ∧
      evaluate 2 (.list [.symbol "mk", .symbol "mk"]) scope = .ok value ∧
      value.source = "(lambda (x x) (n x))" ∧
      ∃ e value', Expr.ofSource "(lambda (x x) (n x))" = .ok e ∧
        evaluate 1 e .standard = .ok value' ∧ (value' == value) = true := by
  have hmk : Expr.ofSource "(lambda (n) (lambda (x x) (n x)))" =
      .ok (.list [.symbol "lambda", .list [.symbol "n"], .list [.symbol "lambda",
        .list [.symbol "x", .symbol "x"], .list [.symbol "n", .symbol "x"]]]) := by cbv
  have hread : Expr.ofSource "(mk mk)" = .ok (.list [.symbol "mk", .symbol "mk"]) := by cbv
  have hvalue : SourceValue (.lambda ["n"] (.list [.symbol "lambda",
      .list [.symbol "x", .symbol "x"], .list [.symbol "n", .symbol "x"]]) Scope.standard) :=
    .intro .standard hmk (evaluate_abstract 0 ["n"] _)
  have hscope : SourceScope (Scope.standard.extend [("mk", _)]) :=
    .extend .standard (List.forall_mem_singleton.mpr hvalue)
  obtain ⟨e, value', hread', hevaluate, heq⟩ :=
    source_evaluates hscope hread (show evaluate 2 _ _ = .ok _ from rfl) (by simp)
  exact ⟨_, _, hscope, rfl, rfl, e, value', hread', hevaluate 1 Nat.one_pos, heq⟩

end Lisplet
