import Lisplet.Proofs.Eval.Outcome

/-!
# Proofs/Eval/Call — what a call comes to

What the head of a call means decides how the call goes on: `evaluate_call` hands it to
`callProcedure`, which lists the cases.  Rows of arguments are evaluated by `List.mapM` wherever
they are evaluated at all, by a `lambda` as well as by the primitives.  `evaluateBy` is evaluation
with the way a `lambda` is applied left open, which lets one say what applications a program
depends on.
-/

namespace Lisplet

/-! ## Rows of arguments -/

/-- The values of arguments are computed as a row. -/
theorem evalAll_eq_mapM (eval : Expr → Outcome Expr) (args : List Expr) :
    evalAll eval args = args.mapM eval := by
  induction args with
  | nil => rfl
  | cons arg args ih => simp [evalAll, ih]

namespace Primitive

/-- A running total is the sum of a row. -/
theorem total_eq_mapM (name : String) (eval : Expr → Outcome Expr) (sum : Float)
    (args : List Expr) : total name eval sum args =
      args.mapM (numberOf name eval) >>= fun xs => .ok (xs.foldl (· + ·) sum) := by
  induction args generalizing sum with
  | nil => rfl
  | cons arg args ih => simp [total, ih]

theorem numberOf_congr {name : String} {eval eval' : Expr → Outcome Expr} {arg : Expr}
    (h : eval arg = eval' arg) : numberOf name eval arg = numberOf name eval' arg := by
  rw [numberOf, numberOf, h]

/-- A result is the number itself or out of range. -/
theorem finite_eq_ofFaulty {name : String} {x : Float} {result : Except Fault Expr}
    (h : finite name x = .ofFaulty result) :
    (x.isFinite = true ∧ result = .ok (.number x)) ∨
      (x.isFinite = false ∧ result = .error (.resultRange name)) := by
  rw [finite] at h
  split at h
  · next hfinite => exact .inl ⟨hfinite, Outcome.ok_eq_ofFaulty h⟩
  · next hfinite => exact .inr ⟨Bool.eq_false_iff.mpr hfinite, Outcome.fail_eq_ofFaulty h⟩

/-- A primitive evaluates its arguments and nothing else. -/
theorem call_congr {eval eval' : Expr → Outcome Expr} {args : List Expr}
    (h : ∀ arg ∈ args, eval arg = eval' arg) (scope : Scope) (name : String)
    (primitive : Primitive) :
    call eval scope name primitive args = call eval' scope name primitive args := by
  fun_cases call eval scope name primitive args with
  | case1 =>
    rw [call, total_eq_mapM, total_eq_mapM,
      Outcome.mapM_congr fun arg harg => numberOf_congr (h arg harg)]
  | case2 first second =>
    rw [call, numberOf_congr (h first (by simp)), numberOf_congr (h second (by simp))]
  | case3 | case4 | case5 | case6 => simp_all [call]

/-- A sum is computed from the row of its numbers. -/
theorem call_add_eq_mapM (eval : Expr → Outcome Expr) (scope : Scope) (name : String)
    (args : List Expr) : call eval scope name .add args =
      args.mapM (numberOf name eval) >>= fun xs => finite name (xs.foldl (· + ·) 0) := by
  rw [call, total_eq_mapM, bind_assoc]
  simp only [Outcome.ok_bind]

/-- A difference is computed from the row of its two numbers. -/
theorem call_subtract_eq_mapM (eval : Expr → Outcome Expr) (scope : Scope) (name : String)
    (first second : Expr) : call eval scope name .subtract [first, second] =
      [first, second].mapM (numberOf name eval) >>= fun xs =>
        finite name (xs.getD 0 0 - xs.getD 1 0) := by
  simp only [List.mapM_cons, List.mapM_nil, bind_assoc, pure_bind]
  rfl

theorem call_subtract_of_length_ne {args : List Expr} (h : args.length ≠ 2)
    (eval : Expr → Outcome Expr) (scope : Scope) (name : String) :
    call eval scope name .subtract args = .fail (.arity name 2 args.length) :=
  match args, h with
  | [], _ | [_], _ | _ :: _ :: _ :: _, _ => rfl

theorem call_abstract_of_length_ne {args : List Expr} (h : args.length ≠ 2)
    (eval : Expr → Outcome Expr) (scope : Scope) (name : String) :
    call eval scope name .abstract args = .fail (.arity name 2 args.length) :=
  match args, h with
  | [], _ => rfl
  | [arg], _ | arg :: _ :: _ :: _, _ => by cases arg <;> rfl

theorem call_abstract_of_ne {given : Expr} (h : ∀ es, given ≠ .list es)
    (eval : Expr → Outcome Expr) (scope : Scope) (name : String) (body : Expr) :
    call eval scope name .abstract [given, body] = .fail (.notParameters given) := by
  cases given with
  | list es => exact absurd rfl (h es)
  | _ => rfl

/-- Symbols are the parameters of their names. -/
theorem parameterNames_map_symbol (names : List String) :
    parameterNames (names.map .symbol) = .ok names := by
  induction names with
  | nil => rfl
  | cons name names ih => simp [parameterNames, ih]

/-- The first parameter that is no symbol is at fault. -/
theorem parameterNames_of_ne {given : Expr} (h : ∀ name, given ≠ .symbol name)
    (names : List String) (rest : List Expr) :
    parameterNames (names.map .symbol ++ given :: rest) = .fail (.notParameter given) := by
  induction names with
  | nil =>
    cases given with
    | symbol name => exact absurd rfl (h name)
    | _ => rfl
  | cons name names ih => simp [parameterNames, ih]

/-- Parameters are symbols all of them, or symbols up to one that is none. -/
theorem parameters_cases (parameters : List Expr) :
    (∃ names : List String, parameters = names.map .symbol) ∨
      ∃ (names : List String) (given : Expr) (rest : List Expr),
        parameters = names.map .symbol ++ given :: rest ∧ ∀ name, given ≠ .symbol name := by
  induction parameters with
  | nil => exact .inl ⟨[], rfl⟩
  | cons e parameters ih =>
    by_cases he : ∃ name, e = .symbol name
    · obtain ⟨name, rfl⟩ := he
      obtain ⟨names, rfl⟩ | ⟨names, given, rest, rfl, hgiven⟩ := ih
      · exact .inl ⟨name :: names, rfl⟩
      · exact .inr ⟨name :: names, given, rest, rfl, hgiven⟩
    · exact .inr ⟨[], e, parameters, rfl, not_exists.mp he⟩

end Primitive

/-! ## Evaluation by another application -/

/-- A way to apply a `lambda` called by a name to values, like `applyLambda`. -/
abbrev Application :=
  (Expr → Scope → Outcome Expr) → String → List String → Expr → Scope → List Expr → Scope →
    Outcome Expr

/-- **The value of an expression**, where a `lambda` is applied by `apply`. -/
def evaluateBy (apply : Application) : Nat → Expr → Scope → Outcome Expr
  | 0, _, _ => .error .tooDeep
  | limit + 1, expr, scope =>
    match expr with
    | .symbol name => .ofFaulty (scope.lookup name)
    | .list [] => .ok (.list [])
    | .list (.symbol name :: args) => do
      match ← Outcome.ofFaulty (scope.lookup name) with
      | .builtin known primitive =>
        primitive.call (fun arg => evaluateBy apply limit arg scope) scope known args
      | .lambda parameters body captured => do
        checkArity name parameters.length args.length
        let values ← evalAll (fun arg => evaluateBy apply limit arg scope) args
        apply (evaluateBy apply limit) name parameters body captured values scope
      | value => .fail (.notProcedure (.symbol name) value)
    | .list (head :: _) => .fail (.notName head)
    | value => .ok value

/-- What a call comes to by another application. -/
theorem evaluateBy_call (apply : Application) (limit : Nat) (name : String) (args : List Expr)
    (scope : Scope) :
    evaluateBy apply (limit + 1) (.list (.symbol name :: args)) scope =
      match scope.find? name with
      | none => .fail (.unbound name)
      | some (.builtin known primitive) =>
        primitive.call (fun arg => evaluateBy apply limit arg scope) scope known args
      | some (.lambda parameters body captured) =>
        if args.length = parameters.length then
          args.mapM (fun arg => evaluateBy apply limit arg scope) >>= fun values =>
            apply (evaluateBy apply limit) name parameters body captured values scope
        else .fail (.arity name parameters.length args.length)
      | some value => .fail (.notProcedure (.symbol name) value) := by
  rw [evaluateBy, Scope.lookup]
  cases scope.find? name with
  | none => rfl
  | some value =>
    cases value with
    | lambda parameters body captured =>
      simp only [Outcome.ofFaulty, Outcome.ok_bind, checkArity, evalAll_eq_mapM]
      split <;> rfl
    | _ => rfl

/-- Evaluation applies a `lambda` by `applyLambda`. -/
theorem evaluateBy_applyLambda : evaluateBy applyLambda = evaluate := by
  funext limit
  induction limit with
  | zero => rfl
  | succ limit ih =>
    funext expr scope
    unfold evaluateBy evaluate
    exact ih ▸ rfl

/-! ## The cases of a call -/

/-- A head that is no symbol names nothing. -/
theorem evaluate_of_head_ne {head : Expr} (h : ∀ name, head ≠ .symbol name) (limit : Nat)
    (args : List Expr) (scope : Scope) :
    evaluate (limit + 1) (.list (head :: args)) scope = .fail (.notName head) := by
  cases head with
  | symbol name => exact absurd rfl (h name)
  | _ => rfl

/-- The scope around the body of a `lambda`: the one it captured, or the calling scope if it
captured none. -/
def Scope.home (captured calling : Scope) : Scope := if captured.isEmpty then calling else captured

theorem Scope.home_of_ne_nil {captured : Scope} (h : captured ≠ []) (calling : Scope) :
    captured.home calling = captured := by
  simp [home, h]

/-- Values that are as many as the parameters are bound to them around the body. -/
theorem applyLambda_of_length_eq {parameters : List String} {values : List Expr}
    (h : values.length = parameters.length) (eval : Expr → Scope → Outcome Expr) (name : String)
    (body : Expr) (captured calling : Scope) :
    applyLambda eval name parameters body captured values calling =
      eval body ((captured.home calling).extend (parameters.zip values)) := by
  simp [applyLambda, checkArity, h, Scope.home]

/-- **What a call comes to** when its head, a name, means `procedure`. -/
def callProcedure (eval : Expr → Scope → Outcome Expr) (name : String) (args : List Expr)
    (scope : Scope) : Expr → Outcome Expr
  | .builtin known primitive => primitive.call (fun arg => eval arg scope) scope known args
  | .lambda parameters body captured =>
    if args.length = parameters.length then
      args.mapM (fun arg => eval arg scope) >>= fun values =>
        eval body ((Scope.home captured scope).extend (parameters.zip values))
    else .fail (.arity name parameters.length args.length)
  | value => .fail (.notProcedure (.symbol name) value)

theorem evaluate_symbol (limit : Nat) (name : String) (scope : Scope) :
    evaluate (limit + 1) (.symbol name) scope = .ofFaulty (scope.lookup name) := rfl

theorem evaluate_call (limit : Nat) (name : String) (args : List Expr) (scope : Scope) :
    evaluate (limit + 1) (.list (.symbol name :: args)) scope =
      Outcome.ofFaulty (scope.lookup name) >>= callProcedure (evaluate limit) name args scope := by
  rw [← evaluateBy_applyLambda, evaluateBy_call, evaluateBy_applyLambda, Scope.lookup]
  match scope.find? name with
  | some (.lambda parameters body captured) =>
    refine ite_congr rfl (fun harity => Outcome.bind_congr fun values hvalues => ?_) fun _ => rfl
    refine applyLambda_of_length_eq ?_ ..
    rw [Outcome.length_of_mapM hvalues, harity]
  | none | some (.builtin ..) | some (.number _) | some (.symbol _) | some (.list _) => rfl

end Lisplet
