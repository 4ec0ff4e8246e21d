import Lisplet.Proofs.Eval.Faults
import Lisplet.Proofs.Eval.Rules

/-!
# Proofs/Eval/Direct — evaluation without procedures of one's own

In a scope that binds no `lambda`, evaluation only ever goes from a call to its arguments: a
`lambda` can be made there, but no name leads to it.  So `direct` computes the same by recursion on
the expression, without a limit and without applying anything but the primitives, and as many
evaluations inside one another are enough as the expression has levels (`evaluate_eq_direct`).
-/

namespace Lisplet

namespace Expr

/-! ## Nesting -/

mutual

/-- **How many levels an expression has**: a list has one more than the deepest of its elements, and
one if it has none, as everything else has. -/
def nesting : Expr → Nat
  | .list es => nestingAll es + 1
  | _ => 1

/-- The levels of the deepest of a row of expressions. -/
def nestingAll : List Expr → Nat
  | [] => 0
  | e :: es => max e.nesting (nestingAll es)

end

theorem nesting_pos (e : Expr) : 0 < e.nesting := by
  cases e <;> simp [nesting]

theorem nesting_le_nestingAll {e : Expr} {es : List Expr} (h : e ∈ es) :
    e.nesting ≤ nestingAll es := by
  induction es with
  | nil => exact absurd h List.not_mem_nil
  | cons e' es ih =>
    rw [nestingAll]
    obtain rfl | hes := List.mem_cons.mp h
    · exact Nat.le_max_left _ _
    · exact Nat.le_trans (ih hes) (Nat.le_max_right _ _)

/-- The arguments of a call have fewer levels than the call. -/
theorem nesting_lt_of_mem {e head : Expr} {args : List Expr} (h : e ∈ args) :
    e.nesting < (list (head :: args)).nesting := by
  rw [nesting]
  exact Nat.lt_succ_of_le (nesting_le_nestingAll (List.mem_cons_of_mem head h))

/-! ## Direct evaluation -/

/-- The name of a symbol. -/
def symbolName? : Expr → Option String
  | .symbol name => some name
  | _ => none

/-- A number that is neither infinite nor undefined. -/
def directNumber (name : String) (x : Float) : Except Fault Expr :=
  if x.isFinite then .ok (.number x) else .error (.resultRange name)

/-- The `lambda` of a list of symbols and a body, with the scope it is made in. -/
def directLambda (scope : Scope) (body : Expr) : Expr → Except Fault Expr
  | .list parameters =>
    match parameters.find? fun e => e.symbolName?.isNone with
    | some other => .error (.notParameter other)
    | none => .ok (.lambda (parameters.filterMap symbolName?) body scope)
  | other => .error (.notParameters other)

/-- What calling a primitive comes to, given the numbers that its arguments are: sums and differences
are of these, and a `lambda` is made of the arguments themselves. -/
def directPrimitive (scope : Scope) (known : String) (args : List Expr)
    (numbers : Except Fault (List Float)) : Primitive → Except Fault Expr
  | .add => do
    let xs ← numbers
    directNumber known (xs.foldl (· + ·) 0)
  | .subtract =>
    if args.length = 2 then do
      let xs ← numbers
      directNumber known (xs.getD 0 0 - xs.getD 1 0)
    else .error (.arity known 2 args.length)
  | .abstract =>
    match args with
    | [given, body] => directLambda scope body given
    | _ => .error (.arity known 2 args.length)

theorem directPrimitive_abstract_of_length_ne {args : List Expr} (h : args.length ≠ 2)
    (scope : Scope) (known : String) (numbers : Except Fault (List Float)) :
    directPrimitive scope known args numbers .abstract = .error (.arity known 2 args.length) :=
  match args, h with
  | [], _ | [_], _ | _ :: _ :: _ :: _, _ => rfl

mutual

/-- **The value of an expression by recursion on it**: symbols are looked up, and calls of the
primitives computed from the values of their arguments.  There is no rule for applying a `lambda`. -/
def direct (scope : Scope) : Expr → Except Fault Expr
  | .symbol name => scope.lookup name
  | .list [] => .ok (.list [])
  | .list (.symbol name :: args) => do
    match ← scope.lookup name with
    | .builtin known primitive =>
      directPrimitive scope known args (directNumbers scope known args) primitive
    | value => .error (.notProcedure (.symbol name) value)
  | .list (head :: _) => .error (.notName head)
  | value => .ok value

/-- The values of arguments that have to be numbers, from left to right. -/
def directNumbers (scope : Scope) (known : String) : List Expr → Except Fault (List Float)
  | [] => .ok []
  | arg :: args => do
    match ← direct scope arg with
    | .number x =>
      let xs ← directNumbers scope known args
      .ok (x :: xs)
    | value => .error (.notNumber known value)

end

end Expr

/-! ## Scopes without procedures of one's own -/

/-- **A scope that binds no `lambda`**, in any of its frames. -/
def Scope.LambdaFree (scope : Scope) : Prop :=
  ∀ frame ∈ scope, ∀ b ∈ frame, ∀ parameters body captured, b.2 ≠ .lambda parameters body captured

theorem Scope.LambdaFree.ne_of_find? {scope : Scope} (h : scope.LambdaFree) {name : String}
    {value : Expr} (hfind : scope.find? name = some value) (parameters : List String) (body : Expr)
    (captured : Scope) : value ≠ .lambda parameters body captured := by
  obtain ⟨frame, hframe, hb⟩ := exists_mem_of_find? hfind
  exact h frame hframe _ hb parameters body captured

theorem Scope.LambdaFree.ne_of_lookup {scope : Scope} (h : scope.LambdaFree) {name : String}
    {value : Expr} (hlookup : scope.lookup name = .ok value) (parameters : List String)
    (body : Expr) (captured : Scope) : value ≠ .lambda parameters body captured := by
  rw [lookup] at hlookup
  split at hlookup
  · next hfind =>
    obtain rfl := Except.ok.inj hlookup
    exact h.ne_of_find? hfind parameters body captured
  · simp at hlookup

/-- The scope that programs start in binds the primitives only. -/
theorem Scope.lambdaFree_standard : Scope.standard.LambdaFree := by
  intro frame hframe b hb parameters body captured
  obtain rfl := List.mem_singleton.mp hframe
  obtain ⟨primitive, -, rfl⟩ := List.mem_map.mp (List.mem_reverse.mp hb)
  simp

/-! ## Direct evaluation is evaluation -/

namespace Primitive

theorem finite_eq_directNumber (name : String) (x : Float) :
    finite name x = .ofFaulty (Expr.directNumber name x) := by
  rw [finite, Expr.directNumber]
  split <;> rfl

theorem find?_map_symbol (names : List String) :
    ((names.map Expr.symbol).find? fun e => e.symbolName?.isNone) = none := by
  simp [Expr.symbolName?]

theorem filterMap_map_symbol (names : List String) :
    (names.map Expr.symbol).filterMap Expr.symbolName? = names := by
  simp [List.filterMap_map, Function.comp_def, Expr.symbolName?]

theorem symbolName?_of_ne {e : Expr} (h : ∀ name, e ≠ .symbol name) : e.symbolName? = none := by
  cases e with
  | symbol name => exact absurd rfl (h name)
  | _ => rfl

/-- A `lambda` is made without evaluating anything. -/
theorem call_abstract_eq_directLambda (eval : Expr → Outcome Expr) (scope : Scope) (known : String)
    (given body : Expr) : call eval scope known .abstract [given, body] =
      .ofFaulty (Expr.directLambda scope body given) := by
  cases given with
  | list parameters =>
    rw [call, Expr.directLambda]
    obtain ⟨names, rfl⟩ | ⟨names, other, rest, rfl, hother⟩ := parameters_cases parameters
    · rw [parameterNames_map_symbol, find?_map_symbol, filterMap_map_symbol]
      rfl
    · rw [parameterNames_of_ne hother, List.find?_append, find?_map_symbol]
      simp only [List.find?_cons, symbolName?_of_ne hother]
      rfl
  | _ => rfl

theorem mapM_numberOf_eq_directNumbers {eval : Expr → Outcome Expr} {scope : Scope}
    {args : List Expr} (h : ∀ arg ∈ args, eval arg = .ofFaulty (arg.direct scope))
    (known : String) :
    args.mapM (numberOf known eval) = .ofFaulty (Expr.directNumbers scope known args) := by
  induction args with
  | nil => rfl
  | cons arg args ih =>
    obtain ⟨harg, hargs⟩ := List.forall_mem_cons.mp h
    rw [List.mapM_cons, numberOf, harg, ih hargs, Expr.directNumbers]
    match arg.direct scope with
    | .ok (.number x) =>
      exact (Outcome.ofFaulty_bind (Expr.directNumbers scope known args) fun xs =>
        .ok (x :: xs)).symm
    | .error _ | .ok (.symbol _) | .ok (.list _) | .ok (.lambda ..) | .ok (.builtin ..) => rfl

/-- **A primitive is called on the numbers that its arguments are.** -/
theorem call_eq_directPrimitive {eval : Expr → Outcome Expr} {scope : Scope} {args : List Expr}
    (h : ∀ arg ∈ args, eval arg = .ofFaulty (arg.direct scope)) (known : String)
    (primitive : Primitive) : call eval scope known primitive args =
      .ofFaulty (Expr.directPrimitive scope known args (Expr.directNumbers scope known args)
        primitive) := by
  have hnumbers := mapM_numberOf_eq_directNumbers h known
  cases primitive with
  | add =>
    rw [call_add_eq_mapM, hnumbers, Expr.directPrimitive, Outcome.ofFaulty_bind]
    simp only [finite_eq_directNumber]
  | subtract =>
    rw [Expr.directPrimitive]
    split
    · next hlength =>
      obtain ⟨first, second, rfl⟩ := List.length_eq_two.mp hlength
      rw [call_subtract_eq_mapM, hnumbers, Outcome.ofFaulty_bind]
      simp only [finite_eq_directNumber]
    · next hlength => exact call_subtract_of_length_ne hlength ..
  | abstract =>
    by_cases hlength : args.length = 2
    · obtain ⟨given, body, rfl⟩ := List.length_eq_two.mp hlength
      exact call_abstract_eq_directLambda ..
    · rw [call_abstract_of_length_ne hlength, Expr.directPrimitive_abstract_of_length_ne hlength]
      rfl

end Primitive

section

variable {scope : Scope} (hscope : scope.LambdaFree)

include hscope

/-- **Evaluation is direct evaluation** where no `lambda` is bound, at every limit that the levels
of the expression fit in. -/
theorem evaluate_eq_direct {e : Expr} {limit : Nat} (hlimit : e.nesting ≤ limit) :
    evaluate limit e scope = .ofFaulty (e.direct scope) := by
  -- Only arguments are evaluated inside a call, so each level of the expression takes one of the limit.
  induction limit generalizing e with
  | zero => exact absurd e.nesting_pos (Nat.not_lt.mpr hlimit)
  | succ limit ih =>
    cases e with
    | number | lambda | builtin => rfl
    | symbol name => rfl
    | list es =>
      cases es with
      | nil => rfl
      | cons head args =>
        by_cases hhead : ∃ name, head = .symbol name
        · obtain ⟨name, rfl⟩ := hhead
          have hargs : ∀ arg ∈ args, evaluate limit arg scope = .ofFaulty (arg.direct scope) :=
            fun arg harg => ih (Nat.le_of_lt_succ
              (Nat.lt_of_lt_of_le (Expr.nesting_lt_of_mem harg) hlimit))
          rw [evaluate_call, Expr.direct, Outcome.ofFaulty_bind]
          refine Outcome.bind_congr fun procedure hprocedure => ?_
          cases procedure with
          | builtin known primitive => exact Primitive.call_eq_directPrimitive hargs known primitive
          | lambda parameters body captured =>
            have hlookup := Outcome.ok_eq_ofFaulty hprocedure.symm
            exact absurd rfl (hscope.ne_of_lookup hlookup parameters body captured)
          | _ => rfl
        · rw [evaluate_of_head_ne (not_exists.mp hhead)]
          cases head with
          | symbol name => exact absurd ⟨name, rfl⟩ hhead
          | _ => rfl

/-- **No `lambda` is applied** where none is bound: it makes no difference what would come of it. -/
theorem evaluateBy_of_lambdaFree (apply : Application) (limit : Nat) (e : Expr) :
    evaluateBy apply limit e scope = evaluate limit e scope := by
  induction limit generalizing e with
  | zero => rfl
  | succ limit ih =>
    cases e with
    | number | lambda | builtin | symbol => rfl
    | list es =>
      cases es with
      | nil => rfl
      | cons head args =>
        cases head with
        | symbol name =>
          rw [evaluateBy_call, evaluate_call, Scope.lookup]
          match hfind : scope.find? name with
          | some (.lambda parameters body captured) =>
            exact absurd rfl (hscope.ne_of_find? hfind parameters body captured)
          | some (.builtin known primitive) =>
            exact Primitive.call_congr (fun arg _ => ih arg) scope known primitive
          | none | some (.number _) | some (.symbol _) | some (.list _) => rfl
        | number | list | lambda | builtin => rfl

/-- A direct evaluation that fails is at a fault of evaluation. -/
theorem ofEvaluation_of_direct {e : Expr} {fault : Fault} (h : e.direct scope = .error fault) :
    fault.OfEvaluation := by
  have heval := evaluate_eq_direct hscope (Nat.le_refl e.nesting)
  rw [h] at heval
  exact ofEvaluation_of_evaluate heval

/-- Where the levels of an expression do not fit in the limit, nothing else than that may come of
it. -/
theorem tooDeep_or_eq_direct (limit : Nat) (e : Expr) :
    evaluate limit e scope = .error .tooDeep ∨
      evaluate limit e scope = .ofFaulty (e.direct scope) := by
  have hdirect := Evaluates.of_evaluate (evaluate_eq_direct hscope (Nat.le_refl e.nesting))
  -- The rules give one result at most, so an answer at any limit is the direct one.
  match h : evaluate limit e scope with
  | .error .tooDeep => exact .inl rfl
  | .ok value =>
    have hvalue : Evaluates scope e (.ok value) := .of_evaluate h
    exact .inr (congrArg Outcome.ofFaulty (hvalue.unique hdirect))
  | .error (.fault fault) =>
    have hfault : Evaluates scope e (.error fault) := .of_evaluate h
    exact .inr (congrArg Outcome.ofFaulty (hfault.unique hdirect))

end

end Lisplet
