import Lisplet.Proofs.Eval.Call
import Lisplet.Proofs.Expr.Readable
import Lisplet.Proofs.Scope

/-!
# Proofs/Eval/Program — what programs come to

A program is an expression read from a text, run in a scope that holds values of programs only.  Its
value is again one of those, and its faults are those of evaluation (`safe_evaluate`): scopes,
procedures and values stay in step with one another, as every body that is entered was read from a
text too and every scope that is extended is extended by values.  For the same reason no program
applies a `lambda` that captured no scope, or to values that are too many or too few
(`evaluateBy_eq_evaluate`).
-/

namespace Lisplet

/-! ## Scopes and values of programs -/

mutual

/-- **A scope of programs**: the one that programs start in, extended any number of times with
bindings of any names to values of programs. -/
inductive ProgramScope : Scope → Prop
  | standard : ProgramScope .standard
  | extend {scope : Scope} {bindings : List (String × Expr)} : ProgramScope scope →
      (∀ b ∈ bindings, ProgramValue b.2) → ProgramScope (scope.extend bindings)

/-- **A value of programs**: a finite number, the empty list, one of the three primitives under its
own name, or a `lambda` with a scope of programs around it, whose parameters and body were read. -/
inductive ProgramValue : Expr → Prop
  | number {x : Float} : x.isFinite = true → ProgramValue (.number x)
  | nil : ProgramValue (.list [])
  | builtin (primitive : Primitive) : ProgramValue (.builtin primitive.name primitive)
  | lambda {parameters : List String} {body : Expr} {captured : Scope} : ProgramScope captured →
      (∀ name ∈ parameters, IsName name) → body.Readable →
      ProgramValue (.lambda parameters body captured)

end

namespace ProgramScope

theorem ne_nil {scope : Scope} (h : ProgramScope scope) : scope ≠ [] := by
  cases h <;> exact List.cons_ne_nil _ _

/-- Whatever a scope of programs finds is a value of programs. -/
theorem value_of_find? {scope : Scope} {name : String} {value : Expr} (hscope : ProgramScope scope)
    (h : scope.find? name = some value) : ProgramValue value := by
  cases hscope with
  | standard =>
    obtain hmem | hnone := Scope.mem_or_of_find?_extend h
    · obtain ⟨primitive, -, hbinding⟩ := List.mem_map.mp hmem
      obtain ⟨-, rfl⟩ := Prod.mk.inj hbinding
      exact .builtin primitive
    · simp [Scope.find?] at hnone
  | extend houter hbindings =>
    obtain hmem | hfind := Scope.mem_or_of_find?_extend h
    · exact hbindings _ hmem
    · exact houter.value_of_find? hfind

/-- A call binds parameters to values of programs. -/
theorem extend_zip {scope : Scope} (h : ProgramScope scope) (parameters : List String)
    {values : List Expr} (hvalues : ∀ value ∈ values, ProgramValue value) :
    ProgramScope (scope.extend (parameters.zip values)) :=
  h.extend fun b hb => hvalues b.2 (List.of_mem_zip hb).2

end ProgramScope

/-! ## Outcomes of programs -/

/-- **A fault of evaluation**: a name without a meaning, a wrong number of arguments, an argument of
the wrong sort, something that cannot be applied, or a result out of range. -/
def Fault.OfEvaluation (fault : Fault) : Prop :=
  fault.kind ∈ [.unbound, .arity, .argument, .uncallable] ∨ ∃ name, fault = .resultRange name

namespace Outcome

variable {α β : Type} {P : α → Prop} {Q : β → Prop}

/-- **What a program may come to**: a value with a property, a fault of evaluation, or the limit. -/
def Safe (P : α → Prop) : Outcome α → Prop
  | .ok a => P a
  | .error (.fault fault) => fault.OfEvaluation
  | .error .tooDeep => True

theorem Safe.of_ok {r : Outcome α} {a : α} (h : r.Safe P) (hr : r = .ok a) : P a := by
  rw [hr] at h
  exact h

/-- A safe computation has any property that follows from the one it has. -/
theorem Safe.imp {Q : α → Prop} {r : Outcome α} (h : r.Safe P) (himp : ∀ a, P a → Q a) : r.Safe Q :=
  match r, h with
  | .ok a, h => himp a h
  | .error (.fault _), h => h
  | .error .tooDeep, h => h

/-- What comes after a safe computation need be safe after its value only. -/
theorem Safe.bind {r : Outcome α} {f : α → Outcome β} (h : r.Safe P)
    (hf : ∀ a, P a → (f a).Safe Q) : (r >>= f).Safe Q :=
  match r, h with
  | .ok a, h => hf a h
  | .error (.fault _), h => h
  | .error .tooDeep, h => h

/-- A row of safe computations is safe. -/
theorem safe_mapM {f : β → Outcome α} {xs : List β} (h : ∀ x ∈ xs, (f x).Safe P) :
    (xs.mapM f).Safe fun ys => ∀ y ∈ ys, P y := by
  induction xs with
  | nil => exact fun y hy => absurd hy List.not_mem_nil
  | cons x xs ih =>
    rw [List.mapM_cons]
    refine (h x List.mem_cons_self).bind fun y hy => ?_
    exact (ih fun x' hx' => h x' (List.mem_cons_of_mem x hx')).bind fun ys hys =>
      List.forall_mem_cons.mpr ⟨hy, hys⟩

end Outcome

/-! ## Primitives -/

namespace Primitive

theorem safe_finite {P : Expr → Prop} (hnumber : ∀ x : Float, x.isFinite = true → P (.number x))
    (name : String) (x : Float) : (finite name x).Safe P := by
  rw [finite]
  split
  · next hx => exact hnumber x hx
  · exact .inr ⟨name, rfl⟩

theorem safe_numberOf {P : Expr → Prop} {name : String} {eval : Expr → Outcome Expr} {arg : Expr}
    (h : (eval arg).Safe P) : (numberOf name eval arg).Safe fun _ => True := by
  refine h.bind fun value _ => ?_
  split
  · trivial
  · exact .inl (by simp [Fault.kind])

theorem safe_total {P : Expr → Prop} {name : String} {eval : Expr → Outcome Expr} {sum : Float}
    {args : List Expr} (h : ∀ arg ∈ args, (eval arg).Safe P) :
    (total name eval sum args).Safe fun _ => True := by
  rw [total_eq_mapM]
  exact (Outcome.safe_mapM fun arg harg => safe_numberOf (h arg harg)).bind fun _ _ => trivial

/-- The parameters of a `lambda` that was read are names. -/
theorem safe_parameterNames {parameters : List Expr} (h : ∀ e ∈ parameters, e.Readable) :
    (parameterNames parameters).Safe fun names => ∀ name ∈ names, IsName name := by
  fun_induction parameterNames parameters with
  | case1 => exact fun name hname => absurd hname List.not_mem_nil
  | case2 name rest ih =>
    obtain ⟨hname, hrest⟩ := List.forall_mem_cons.mp h
    cases hname with
    | symbol hname =>
      exact (ih hrest).bind fun names hnames => List.forall_mem_cons.mpr ⟨hname, hnames⟩
  | case3 => exact .inl (by simp [Fault.kind])

/-- A primitive has a property if finite numbers have it and the `lambda` that it may make. -/
theorem safe_call_of {P : Expr → Prop} {eval : Expr → Outcome Expr} {scope : Scope}
    {args : List Expr} (hnumber : ∀ x : Float, x.isFinite = true → P (.number x))
    (hlambda : ∀ parameters body, args = [.list parameters, body] →
      (parameterNames parameters).Safe fun names => P (.lambda names body scope))
    (heval : ∀ arg ∈ args, (eval arg).Safe P) (name : String) (primitive : Primitive) :
    (call eval scope name primitive args).Safe P := by
  fun_cases call eval scope name primitive args with
  | case1 => exact (safe_total heval).bind fun sum _ => safe_finite hnumber name sum
  | case2 first second =>
    refine (safe_numberOf (heval first (by simp))).bind fun x _ => ?_
    exact (safe_numberOf (heval second (by simp))).bind fun y _ => safe_finite hnumber name (x - y)
  | case4 parameters body => exact (hlambda parameters body rfl).bind fun names hnames => hnames
  | case3 | case5 | case6 => exact .inl (by simp [Fault.kind])

/-- **A primitive is safe** on arguments that were read and that evaluate safely. -/
theorem safe_call {eval : Expr → Outcome Expr} {scope : Scope} {args : List Expr}
    (hscope : ProgramScope scope) (hargs : ∀ arg ∈ args, arg.Readable)
    (heval : ∀ arg ∈ args, (eval arg).Safe ProgramValue) (name : String) (primitive : Primitive) :
    (call eval scope name primitive args).Safe ProgramValue := by
  refine safe_call_of (fun _ => .number) (fun parameters body hpair => ?_) heval name primitive
  have hbody : body.Readable := hargs body (by simp [hpair])
  have hgiven : (Expr.list parameters).Readable := hargs _ (by simp [hpair])
  cases hgiven with
  | list hparameters =>
    exact (safe_parameterNames hparameters).imp fun names hnames => .lambda hscope hnames hbody

end Primitive

/-! ## Evaluation -/

theorem ProgramScope.safe_lookup {scope : Scope} (h : ProgramScope scope) (name : String) :
    (Outcome.ofFaulty (scope.lookup name)).Safe ProgramValue := by
  rw [Scope.lookup]
  split
  · next hfind => exact h.value_of_find? hfind
  · exact .inl (by simp [Fault.kind])

/-- A call is safe if evaluation is: its arguments are evaluated where it stands, and the body of a
`lambda` in a scope of programs again. -/
theorem safe_callProcedure {eval : Expr → Scope → Outcome Expr} {args : List Expr} {scope : Scope}
    {procedure : Expr} (hscope : ProgramScope scope) (hargs : ∀ arg ∈ args, arg.Readable)
    (heval : ∀ e scope, e.Readable → ProgramScope scope → (eval e scope).Safe ProgramValue)
    (hprocedure : ProgramValue procedure) (name : String) :
    (callProcedure eval name args scope procedure).Safe ProgramValue := by
  have hrow : ∀ arg ∈ args, (eval arg scope).Safe ProgramValue :=
    fun arg harg => heval arg scope (hargs arg harg) hscope
  cases hprocedure with
  | number | nil => exact .inl (by simp [Fault.kind])
  | builtin primitive => exact Primitive.safe_call hscope hargs hrow ..
  | @lambda parameters body captured hcaptured _ hbody =>
    rw [callProcedure]
    split
    · refine (Outcome.safe_mapM hrow).bind fun values hvalues => ?_
      rw [Scope.home_of_ne_nil hcaptured.ne_nil]
      exact heval body _ hbody (hcaptured.extend_zip parameters hvalues)
    · exact .inl (by simp [Fault.kind])

/-- **Programs are safe**: in a scope of programs, an expression that was read comes to a value of
programs or to a fault of evaluation, unless it nests too deep. -/
theorem safe_evaluate {e : Expr} {scope : Scope} (he : e.Readable) (hscope : ProgramScope scope)
    (limit : Nat) : (evaluate limit e scope).Safe ProgramValue := by
  induction limit generalizing e scope with
  | zero => trivial
  -- The induction is on the limit, as a body is no part of the call that enters it.
  | succ limit ih =>
    cases he with
    | number hx => exact .number hx
    | @symbol name _ => exact hscope.safe_lookup name
    | @list es hes =>
      cases es with
      | nil => exact .nil
      | cons head args =>
        obtain ⟨hhead, hargs⟩ := List.forall_mem_cons.mp hes
        cases hhead with
        | @symbol name _ =>
          rw [evaluate_call]
          exact (hscope.safe_lookup name).bind fun procedure hprocedure =>
            safe_callProcedure hscope hargs (fun _ _ => ih) hprocedure name
        | _ => exact .inl (by simp [Fault.kind])

/-! ## Applications of programs -/

/-- A way to apply a `lambda` that is the usual one where the `lambda` captured a scope and the
values are as many as its parameters, and is any other where not. -/
def Application.Regular (apply : Application) : Prop :=
  ∀ eval name parameters body captured values calling, captured ≠ [] →
    values.length = parameters.length →
      apply eval name parameters body captured values calling =
        applyLambda eval name parameters body captured values calling

theorem Application.Regular.eq_extend {apply : Application} (h : apply.Regular)
    {parameters : List String} {captured : Scope} {values : List Expr} (hne : captured ≠ [])
    (hlength : values.length = parameters.length) (eval : Expr → Scope → Outcome Expr)
    (name : String) (body : Expr) (calling : Scope) :
    apply eval name parameters body captured values calling =
      eval body (captured.extend (parameters.zip values)) := by
  rw [h eval name parameters body captured values calling hne hlength,
    applyLambda_of_length_eq hlength, Scope.home_of_ne_nil hne]

/-- **Programs apply no `lambda` without a scope, and none to values that are too many or too few**:
it makes no difference what would come of that. -/
theorem evaluateBy_eq_evaluate {apply : Application} (happly : apply.Regular) {e : Expr}
    {scope : Scope} (he : e.Readable) (hscope : ProgramScope scope) (limit : Nat) :
    evaluateBy apply limit e scope = evaluate limit e scope := by
  induction limit generalizing e scope with
  | zero => rfl
  | succ limit ih =>
    cases he with
    | number => rfl
    | symbol => rfl
    | @list es hes =>
      cases es with
      | nil => rfl
      | cons head args =>
        obtain ⟨hhead, hargs⟩ := List.forall_mem_cons.mp hes
        have hrow : ∀ arg ∈ args, evaluateBy apply limit arg scope = evaluate limit arg scope :=
          fun arg harg => ih (hargs arg harg) hscope
        cases hhead with
        | @symbol name _ =>
          rw [evaluateBy_call, evaluate_call, Scope.lookup]
          match hfind : scope.find? name with
          | some (.builtin known primitive) => exact Primitive.call_congr hrow ..
          | some (.lambda parameters body captured) =>
            cases hscope.value_of_find? hfind with
            | lambda hcaptured _ hbody =>
              refine ite_congr rfl (fun harity => ?_) fun _ => rfl
              rw [Outcome.mapM_congr hrow]
              -- The application is a usual one: the values are counted, and safe to bind.
              refine Outcome.bind_congr fun values hvalues => ?_
              have hlength : values.length = parameters.length := by
                rw [Outcome.length_of_mapM hvalues, harity]
              have hsafe := Outcome.safe_mapM fun arg harg =>
                safe_evaluate (hargs arg harg) hscope limit
              rw [happly.eq_extend hcaptured.ne_nil hlength,
                Scope.home_of_ne_nil hcaptured.ne_nil]
              exact ih hbody (hcaptured.extend_zip parameters (hsafe.of_ok hvalues))
          | none | some (.number _) | some (.symbol _) | some (.list _) => rfl
        | _ => rfl

/-- **What the program of a text comes to.**  A text that reads as an expression comes to a value of
programs or to a fault of evaluation in every scope of programs, unless it nests too deep, and on
the way no `lambda` is applied that captured no scope, or to values that are too many or too few. -/
theorem safe_evaluate_ofSource {source : String} {e : Expr} {scope : Scope}
    (hread : Expr.ofSource source = .ok e) (hscope : ProgramScope scope) (limit : Nat) :
    (evaluate limit e scope).Safe ProgramValue ∧
      ∀ apply : Application, apply.Regular →
        evaluateBy apply limit e scope = evaluate limit e scope :=
  have he := Expr.readable_of_ofSource hread
  ⟨safe_evaluate he hscope limit, fun _ happly => evaluateBy_eq_evaluate happly he hscope limit⟩

/-- The text `(f x)` in a scope where `f` gives back what it is applied to. -/
theorem safe_evaluate_ofSource_identity :
    ∃ scope : Scope, ProgramScope scope ∧
      scope.find? "f" = some (.lambda ["y"] (.symbol "y") Scope.standard) ∧
      Expr.ofSource "(f x)" = .ok (.list [.symbol "f", .symbol "x"]) ∧
      evaluate 2 (.list [.symbol "f", .symbol "x"]) scope = .ok (.number 2) ∧
      (evaluate 2 (.list [.symbol "f", .symbol "x"]) scope).Safe ProgramValue := by
  have hread : Expr.ofSource "(f x)" = .ok (.list [.symbol "f", .symbol "x"]) := by cbv
  have hidentity : ProgramValue (.lambda ["y"] (.symbol "y") Scope.standard) :=
    .lambda .standard (by decide) (.symbol (by decide))
  have hnumber : ProgramValue (.number 2) := .number (by decide +kernel)
  have hscope : ProgramScope (Scope.standard.extend
      [("f", .lambda ["y"] (.symbol "y") Scope.standard), ("x", .number 2)]) :=
    .extend .standard (by simp [hidentity, hnumber])
  exact ⟨_, hscope, rfl, hread, rfl, (safe_evaluate_ofSource hread hscope 2).1⟩

end Lisplet
