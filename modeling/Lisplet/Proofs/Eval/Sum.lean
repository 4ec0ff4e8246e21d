import Lisplet.Proofs.Double.Fields
import Lisplet.Proofs.Eval.Limit

/-!
# Proofs/Eval/Sum — one check is as strict as a check at each step

A sum adds its numbers without looking at the totals on the way and checks the last one.  That hides
nothing: a total that is infinite or undefined stays so whatever is added (`Double.isFinite_add`),
so the last is finite exactly if all are (`isFinite_foldl_iff`).  Arguments go before totals: a sum
whose arguments do not all come to numbers fails as the first that does not
(`mapM_numberOf_eq_error_iff`), whatever the total of those in front of it.
-/

namespace Lisplet.Primitive

/-! ## The totals of a sum -/

/-- **The totals of a sum**: zero, and the total after each number. -/
def totals (xs : List Float) : List Float := xs.scanl (· + ·) 0

/-- **A sum with a check at each step**: every total has to be finite before the next number is
added to it. -/
def checkedSum (known : String) (sum : Float) : List Float → Outcome Expr
  | [] => finite known sum
  | x :: xs => do
    let _ ← finite known sum
    checkedSum known (sum + x) xs

variable {sum : Float} {xs : List Float}

/-- Only a finite total is still finite after more numbers, which are finite then. -/
theorem isFinite_of_foldl (h : (xs.foldl (· + ·) sum).isFinite = true) :
    sum.isFinite = true ∧ ∀ x ∈ xs, x.isFinite = true := by
  induction xs generalizing sum with
  | nil => exact ⟨h, by simp⟩
  | cons x xs ih =>
    obtain ⟨hsum, hxs⟩ := ih h
    obtain ⟨hsum, hx⟩ := Double.isFinite_add hsum
    exact ⟨hsum, List.forall_mem_cons.mpr ⟨hx, hxs⟩⟩

/-- **The last total is finite exactly if all totals are.** -/
theorem isFinite_foldl_iff : (xs.foldl (· + ·) sum).isFinite = true ↔
    ∀ s ∈ xs.scanl (· + ·) sum, s.isFinite = true := by
  induction xs generalizing sum with
  | nil => simp
  | cons x xs ih =>
    rw [List.foldl_cons, List.scanl_cons, List.forall_mem_cons, ih, iff_and_self, ← ih]
    exact fun h => (Double.isFinite_add (isFinite_of_foldl h).1).1

/-- **A check at each step comes to the check at the end.** -/
theorem checkedSum_eq (known : String) (sum : Float) (xs : List Float) :
    checkedSum known sum xs = finite known (xs.foldl (· + ·) sum) := by
  induction xs generalizing sum with
  | nil => rfl
  | cons x xs ih =>
    rw [checkedSum, ih, List.foldl_cons, finite]
    split
    · rfl
    · next hsum =>
      -- What the check of this total refuses, the check of the last one refuses as well.
      refine (if_neg fun h => hsum ?_).symm
      exact (Double.isFinite_add (isFinite_of_foldl h).1).1

/-! ## The arguments of a sum -/

/-- **The first argument that is no number**: those before it come to numbers, and its evaluation
halts, or else comes to something that the procedure refuses. -/
def FailsFirst (eval : Expr → Outcome Expr) (known : String) (args : List Expr) (halt : Halt) :
    Prop :=
  ∃ before arg after, args = before ++ arg :: after ∧
    (∀ b ∈ before, ∃ x, eval b = .ok (.number x)) ∧
    (eval arg = .error halt ∨ ∃ value, eval arg = .ok value ∧ (∀ x, value ≠ .number x) ∧
      halt = .fault (.notNumber known value))

section

variable {eval : Expr → Outcome Expr} {known : String} {args : List Expr} {halt : Halt}

/-- **Arguments fail as the first of them that is no number.** -/
theorem mapM_numberOf_eq_error_iff :
    args.mapM (numberOf known eval) = .error halt ↔ FailsFirst eval known args halt := by
  simp only [Outcome.mapM_eq_error_iff, numberOf_eq_ok_iff, numberOf_eq_error_iff, FailsFirst]

theorem mapM_numberOf_eq_ok_iff {xs : List Float} : args.mapM (numberOf known eval) = .ok xs ↔
    List.Forall₂ (fun arg x => eval arg = .ok (.number x)) args xs := by
  simp only [Outcome.mapM_eq_ok_iff, numberOf_eq_ok_iff]

end

theorem finite_eq_ok_iff {name : String} {x : Float} :
    finite name x = .ok (.number x) ↔ x.isFinite = true := by
  rw [finite]
  split <;> simp [*, Outcome.fail]

theorem finite_eq_fail_iff {name : String} {x : Float} :
    finite name x = .fail (.resultRange name) ↔ x.isFinite = false := by
  rw [finite]
  split <;> simp [*, Outcome.fail]

end Lisplet.Primitive

namespace Lisplet

open Primitive

/-- A call whose head means a sum. -/
theorem evaluate_add {scope : Scope} {name known : String}
    (h : scope.find? name = some (.builtin known .add)) (limit : Nat) (args : List Expr) :
    evaluate (limit + 1) (.list (.symbol name :: args)) scope =
      args.mapM (numberOf known fun arg => evaluate limit arg scope) >>= fun xs =>
        finite known (xs.foldl (· + ·) 0) := by
  rw [evaluate_call, Scope.lookup, h]
  exact call_add_eq_mapM _ scope known args

/-- **A sum is as strict as if it checked every step.**  Either all arguments come to numbers, or
there is a first one that does not, and then the sum fails as that one does, however large the
totals before it.  With all of them numbers, the sum has their total for a value exactly if all
totals on the way are finite, and it is out of range exactly if some total is not, which any number
that is not finite brings about; so it comes to what a check at each step comes to. -/
theorem sum_checks_every_step {scope : Scope} {name known : String}
    (h : scope.find? name = some (.builtin known .add)) (limit : Nat) (args : List Expr) :
    let eval := fun arg => evaluate limit arg scope
    let sum := evaluate (limit + 1) (.list (.symbol name :: args)) scope
    ((∃ halt, FailsFirst eval known args halt) ∨
      ∃ xs, List.Forall₂ (fun arg x => eval arg = .ok (.number x)) args xs) ∧
    (∀ halt, FailsFirst eval known args halt → sum = .error halt) ∧
    (∀ xs, List.Forall₂ (fun arg x => eval arg = .ok (.number x)) args xs →
      (sum = .ok (.number (xs.foldl (· + ·) 0)) ↔ ∀ s ∈ totals xs, s.isFinite = true) ∧
      (sum = .fail (.resultRange known) ↔ ∃ s ∈ totals xs, s.isFinite = false) ∧
      ((∃ x ∈ xs, x.isFinite = false) → ∃ s ∈ totals xs, s.isFinite = false) ∧
      sum = checkedSum known 0 xs) ∧
    (Fault.resultRange known).kind = .evaluation ∧
    (Fault.resultRange known).message.text = "'" ++ known ++ "' result out of range" := by
  intro eval sum
  have hsum : sum = args.mapM (numberOf known eval) >>= fun xs =>
      finite known (xs.foldl (· + ·) 0) := evaluate_add h limit args
  refine ⟨?_, fun halt hfails => ?_, fun xs hxs => ?_, rfl, ?_⟩
  · cases hargs : args.mapM (numberOf known eval) with
    | ok xs => exact .inr ⟨xs, mapM_numberOf_eq_ok_iff.mp hargs⟩
    | error halt => exact .inl ⟨halt, mapM_numberOf_eq_error_iff.mp hargs⟩
  · rw [hsum, mapM_numberOf_eq_error_iff.mpr hfails, Outcome.error_bind]
  · rw [mapM_numberOf_eq_ok_iff.mpr hxs, Outcome.ok_bind] at hsum
    have hall : (xs.foldl (· + ·) 0).isFinite = true ↔ ∀ s ∈ totals xs, s.isFinite = true :=
      isFinite_foldl_iff
    have hsome : (xs.foldl (· + ·) 0).isFinite = false ↔ ∃ s ∈ totals xs, s.isFinite = false := by
      simpa using not_congr hall
    rw [hsum, checkedSum_eq, finite_eq_ok_iff, finite_eq_fail_iff, ← hsome]
    refine ⟨hall, Iff.rfl, ?_, rfl⟩
    rintro ⟨x, hx, hinf⟩
    by_contra hfinite
    have := (isFinite_of_foldl (Bool.eq_true_of_not_eq_false hfinite)).2 x hx
    exact absurd (this.symm.trans hinf) (by decide)
  · simp [Fault.message, Message.text, Message.render, String.append_assoc]

/-- The largest double twice and its opposite: the total of the first two is out of range, and the
third hides nothing.  A name that means nothing fails first, though. -/
theorem sum_checks_every_step_largest :
    let largest : Float := 1.7976931348623157e308
    let scope := Scope.standard
    evaluate 2 (.list [.symbol "+", .number largest, .number largest, .number (-largest)]) scope =
        .fail (.resultRange "+") ∧
      evaluate 2 (.list [.symbol "+", .number largest, .number (-largest), .number largest]) scope =
        .ok (.number largest) ∧
      evaluate 2 (.list [.symbol "+", .number largest, .number largest, .symbol "x"]) scope =
        .fail (.unbound "x") := by
  intro largest scope
  have hadd : scope.find? "+" = some (.builtin "+" .add) := rfl
  have hrow : ∀ x y z : Float, List.Forall₂ (fun arg x => evaluate 1 arg scope = .ok (.number x))
      [.number x, .number y, .number z] [x, y, z] :=
    fun x y z => .cons rfl (.cons rfl (.cons rfl .nil))
  refine ⟨?_, ?_, ?_⟩
  · refine ((sum_checks_every_step hadd 1 _).2.2.1 _ (hrow _ _ _)).2.1.mpr ?_
    decide +kernel
  · have hnumbers := (sum_checks_every_step hadd 1 _).2.2.1 _ (hrow largest (-largest) largest)
    have htotal : [largest, -largest, largest].foldl (· + ·) 0 = largest := by decide +kernel
    rw [htotal] at hnumbers
    exact hnumbers.1.mpr (by decide +kernel)
  · refine (sum_checks_every_step hadd 1 _).2.1 _
      ⟨[.number largest, .number largest], .symbol "x", [], rfl, ?_, .inl rfl⟩
    simp [evaluate]

end Lisplet
