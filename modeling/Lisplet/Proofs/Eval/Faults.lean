import Lisplet.Proofs.Eval.Program

/-!
# Proofs/Eval/Faults — evaluation finds faults of evaluation only

Whatever the expression and whatever its scope holds, an evaluation that fails does so by a fault of
evaluation (`ofEvaluation_of_evaluate`): those of reading and loading are not among them.
-/

namespace Lisplet

namespace Primitive

theorem faults_parameterNames (parameters : List Expr) :
    (parameterNames parameters).Safe fun _ => True := by
  fun_induction parameterNames parameters with
  | case1 => trivial
  | case2 name rest ih => exact ih.bind fun _ _ => trivial
  | case3 => exact .inl (by simp [Fault.kind])

theorem faults_call {eval : Expr → Outcome Expr} {args : List Expr}
    (heval : ∀ arg ∈ args, (eval arg).Safe fun _ => True) (scope : Scope) (name : String)
    (primitive : Primitive) : (call eval scope name primitive args).Safe fun _ => True :=
  safe_call_of (fun _ _ => trivial) (fun parameters _ _ => faults_parameterNames parameters) heval
    name primitive

end Primitive

theorem faults_lookup (scope : Scope) (name : String) :
    (Outcome.ofFaulty (scope.lookup name)).Safe fun _ => True := by
  rw [Scope.lookup]
  split
  · trivial
  · exact .inl (by simp [Fault.kind])

theorem faults_callProcedure {eval : Expr → Scope → Outcome Expr}
    (heval : ∀ e scope, (eval e scope).Safe fun _ => True) (name : String) (args : List Expr)
    (scope : Scope) (procedure : Expr) :
    (callProcedure eval name args scope procedure).Safe fun _ => True := by
  cases procedure with
  | number | symbol | list => exact .inl (by simp [Fault.kind])
  | builtin known primitive =>
    exact Primitive.faults_call (fun arg _ => heval arg scope) scope known primitive
  | lambda parameters body captured =>
    rw [callProcedure]
    split
    · exact (Outcome.safe_mapM fun arg _ => heval arg scope).bind fun _ _ => heval body _
    · exact .inl (by simp [Fault.kind])

theorem faults_evaluate (limit : Nat) (e : Expr) (scope : Scope) :
    (evaluate limit e scope).Safe fun _ => True := by
  induction limit generalizing e scope with
  | zero => trivial
  | succ limit ih =>
    cases e with
    | number | lambda | builtin => trivial
    | symbol name => exact faults_lookup scope name
    | list es =>
      cases es with
      | nil => trivial
      | cons head args =>
        by_cases hhead : ∃ name, head = .symbol name
        · obtain ⟨name, rfl⟩ := hhead
          rw [evaluate_call]
          exact (faults_lookup scope name).bind fun procedure _ =>
            faults_callProcedure ih name args scope procedure
        · rw [evaluate_of_head_ne (not_exists.mp hhead)]
          exact .inl (by simp [Fault.kind])

/-- **An evaluation that fails is at a fault of evaluation.** -/
theorem ofEvaluation_of_evaluate {limit : Nat} {e : Expr} {scope : Scope} {fault : Fault}
    (h : evaluate limit e scope = .error (.fault fault)) : fault.OfEvaluation := by
  have hsafe := faults_evaluate limit e scope
  rwa [h] at hsafe

end Lisplet
