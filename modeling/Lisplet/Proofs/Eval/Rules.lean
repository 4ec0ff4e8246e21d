import Lisplet.Proofs.Eval.Call
import Lisplet.Proofs.Scope
import Mathlib.Data.List.Basic

/-!
# Proofs/Eval/Rules — evaluation by rules

The rules of the language say which value or fault an expression comes to, with no word about how
deep an evaluation nests: `Evaluates` for expressions, `Applies` for procedures, `Values` and
`Numbers` for rows of arguments.  `evaluates_iff` states that `evaluate` follows exactly these
rules, given limits that are large enough.  A row stops at its first fault, so nothing needs to be
known of the arguments behind it.
-/

namespace Lisplet

/-! ## What a name means -/

/-- **A name means a value** in a scope if the innermost frame that binds it binds it to that. -/
inductive Scope.Means (name : String) (value : Expr) : Scope → Prop
  | inner {frame : Frame} {outer : Scope} : frame.lookup name = some value →
      Means name value (frame :: outer)
  | outer {frame : Frame} {outer : Scope} : frame.lookup name = none → Means name value outer →
      Means name value (frame :: outer)

/-- A name means nothing in a scope none of whose frames binds it. -/
def Scope.Unbound (name : String) (scope : Scope) : Prop :=
  ∀ frame ∈ scope, frame.lookup name = none

theorem Scope.means_iff {scope : Scope} {name : String} {value : Expr} :
    scope.Means name value ↔ scope.find? name = some value := by
  constructor
  · intro h
    induction h with
    | inner h => rw [find?, h]
    | outer h _ ih => rw [find?, h, ih]
  · intro h
    induction scope with
    | nil => simp [find?] at h
    | cons frame outer ih =>
      rw [find?] at h
      split at h
      · next hframe =>
        obtain rfl := Option.some.inj h
        exact .inner hframe
      · next hframe => exact .outer hframe (ih h)

theorem Scope.unbound_iff {scope : Scope} {name : String} :
    scope.Unbound name ↔ scope.find? name = none := by
  induction scope with
  | nil => simp [Unbound, find?]
  | cons frame outer ih =>
    rw [find?, Unbound, List.forall_mem_cons, ← Unbound, ih]
    cases frame.lookup name <;> simp

/-! ## The rules -/

/-- A procedure is a primitive or a `lambda`. -/
def Expr.IsProcedure : Expr → Prop
  | .builtin .. | .lambda .. => True
  | _ => False

theorem callProcedure_of_not_isProcedure {value : Expr} (h : ¬ value.IsProcedure)
    (eval : Expr → Scope → Outcome Expr) (name : String) (args : List Expr) (scope : Scope) :
    callProcedure eval name args scope value = .fail (.notProcedure (.symbol name) value) := by
  cases value with
  | builtin | lambda => exact absurd trivial h
  | _ => rfl

mutual

/-- **The rules for expressions**: which value or fault an expression comes to in a scope. -/
inductive Evaluates : Scope → Expr → Except Fault Expr → Prop
  /-- Numbers, procedures and the empty list are their own values. -/
  | number {scope : Scope} {x : Float} : Evaluates scope (.number x) (.ok (.number x))
  | lambda {scope : Scope} {parameters : List String} {body : Expr} {captured : Scope} :
      Evaluates scope (.lambda parameters body captured) (.ok (.lambda parameters body captured))
  | builtin {scope : Scope} {known : String} {primitive : Primitive} :
      Evaluates scope (.builtin known primitive) (.ok (.builtin known primitive))
  | nil {scope : Scope} : Evaluates scope (.list []) (.ok (.list []))
  /-- A symbol has the value that its name means. -/
  | symbol {scope : Scope} {name : String} {value : Expr} : scope.Means name value →
      Evaluates scope (.symbol name) (.ok value)
  | unbound {scope : Scope} {name : String} : scope.Unbound name →
      Evaluates scope (.symbol name) (.error (.unbound name))
  /-- The head of a call has to be a name, and one that means something. -/
  | notName {scope : Scope} {head : Expr} {args : List Expr} : (∀ name, head ≠ .symbol name) →
      Evaluates scope (.list (head :: args)) (.error (.notName head))
  | unboundHead {scope : Scope} {name : String} {args : List Expr} : scope.Unbound name →
      Evaluates scope (.list (.symbol name :: args)) (.error (.unbound name))
  | call {scope : Scope} {name : String} {procedure : Expr} {args : List Expr}
      {result : Except Fault Expr} : scope.Means name procedure →
      Applies scope name args procedure result →
      Evaluates scope (.list (.symbol name :: args)) result

/-- **The rules for procedures**: what applying one comes to in the scope of the call, under the
name it is called by, with arguments as they are written. -/
inductive Applies : Scope → String → List Expr → Expr → Except Fault Expr → Prop
  | notProcedure {scope : Scope} {name : String} {args : List Expr} {value : Expr} :
      ¬ value.IsProcedure →
      Applies scope name args value (.error (.notProcedure (.symbol name) value))
  /-- A `lambda` takes as many arguments as it has parameters, which are counted before any of them
  is evaluated. -/
  | lambdaArity {scope : Scope} {name : String} {args : List Expr} {parameters : List String}
      {body : Expr} {captured : Scope} : args.length ≠ parameters.length →
      Applies scope name args (.lambda parameters body captured)
        (.error (.arity name parameters.length args.length))
  | lambdaFault {scope : Scope} {name : String} {args : List Expr} {parameters : List String}
      {body : Expr} {captured : Scope} {fault : Fault} : args.length = parameters.length →
      Values scope args (.error fault) →
      Applies scope name args (.lambda parameters body captured) (.error fault)
  /-- The body is evaluated with the values bound to the parameters in order, the last binding in
  front so that of two parameters of one name the later counts.  Behind them is the scope of the
  `lambda`, and that of the call only if the `lambda` has none. -/
  | lambda {scope : Scope} {name : String} {args : List Expr} {parameters : List String}
      {body : Expr} {captured : Scope} {values : List Expr} {result : Except Fault Expr} :
      args.length = parameters.length → Values scope args (.ok values) →
      Evaluates ((parameters.zip values).reverse :: captured.home scope) body result →
      Applies scope name args (.lambda parameters body captured) result
  /-- The sum of any number of numbers is taken from zero on, from left to right. -/
  | addFault {scope : Scope} {name known : String} {args : List Expr} {fault : Fault} :
      Numbers scope known args (.error fault) →
      Applies scope name args (.builtin known .add) (.error fault)
  | addRange {scope : Scope} {name known : String} {args : List Expr} {xs : List Float} :
      Numbers scope known args (.ok xs) → (xs.foldl (· + ·) 0).isFinite = false →
      Applies scope name args (.builtin known .add) (.error (.resultRange known))
  | add {scope : Scope} {name known : String} {args : List Expr} {xs : List Float} :
      Numbers scope known args (.ok xs) → (xs.foldl (· + ·) 0).isFinite = true →
      Applies scope name args (.builtin known .add) (.ok (.number (xs.foldl (· + ·) 0)))
  /-- A difference is that of two numbers. -/
  | subtractArity {scope : Scope} {name known : String} {args : List Expr} : args.length ≠ 2 →
      Applies scope name args (.builtin known .subtract) (.error (.arity known 2 args.length))
  | subtractFault {scope : Scope} {name known : String} {first second : Expr} {fault : Fault} :
      Numbers scope known [first, second] (.error fault) →
      Applies scope name [first, second] (.builtin known .subtract) (.error fault)
  | subtractRange {scope : Scope} {name known : String} {first second : Expr} {x y : Float} :
      Numbers scope known [first, second] (.ok [x, y]) → (x - y).isFinite = false →
      Applies scope name [first, second] (.builtin known .subtract) (.error (.resultRange known))
  | subtract {scope : Scope} {name known : String} {first second : Expr} {x y : Float} :
      Numbers scope known [first, second] (.ok [x, y]) → (x - y).isFinite = true →
      Applies scope name [first, second] (.builtin known .subtract) (.ok (.number (x - y)))
  /-- A new `lambda` is made of a list of symbols and a body, neither of them evaluated, and of the
  scope of the call. -/
  | abstractArity {scope : Scope} {name known : String} {args : List Expr} : args.length ≠ 2 →
      Applies scope name args (.builtin known .abstract) (.error (.arity known 2 args.length))
  | notParameters {scope : Scope} {name known : String} {given body : Expr} :
      (∀ es, given ≠ .list es) →
      Applies scope name [given, body] (.builtin known .abstract) (.error (.notParameters given))
  | notParameter {scope : Scope} {name known : String} {names : List String} {given : Expr}
      {rest : List Expr} {body : Expr} : (∀ other, given ≠ .symbol other) →
      Applies scope name [.list (names.map .symbol ++ given :: rest), body]
        (.builtin known .abstract) (.error (.notParameter given))
  | abstract {scope : Scope} {name known : String} {names : List String} {body : Expr} :
      Applies scope name [.list (names.map .symbol), body] (.builtin known .abstract)
        (.ok (.lambda names body scope))

/-- **The rules for rows of arguments**: their values from left to right, or the first fault. -/
inductive Values : Scope → List Expr → Except Fault (List Expr) → Prop
  | nil {scope : Scope} : Values scope [] (.ok [])
  | fault {scope : Scope} {arg : Expr} {args : List Expr} {fault : Fault} :
      Evaluates scope arg (.error fault) → Values scope (arg :: args) (.error fault)
  | cons {scope : Scope} {arg value : Expr} {args : List Expr}
      {result : Except Fault (List Expr)} : Evaluates scope arg (.ok value) →
      Values scope args result → Values scope (arg :: args) (result.map (value :: ·))

/-- **The rules for rows of numbers**: each argument is evaluated and found to be a number before
the next one is evaluated. -/
inductive Numbers : Scope → String → List Expr → Except Fault (List Float) → Prop
  | nil {scope : Scope} {known : String} : Numbers scope known [] (.ok [])
  | fault {scope : Scope} {known : String} {arg : Expr} {args : List Expr} {fault : Fault} :
      Evaluates scope arg (.error fault) → Numbers scope known (arg :: args) (.error fault)
  | notNumber {scope : Scope} {known : String} {arg value : Expr} {args : List Expr} :
      Evaluates scope arg (.ok value) → (∀ x, value ≠ .number x) →
      Numbers scope known (arg :: args) (.error (.notNumber known value))
  | cons {scope : Scope} {known : String} {arg : Expr} {x : Float} {args : List Expr}
      {result : Except Fault (List Float)} : Evaluates scope arg (.ok (.number x)) →
      Numbers scope known args result → Numbers scope known (arg :: args) (result.map (x :: ·))

end

/-- A row of arguments with values has the row of these values. -/
theorem Values.cons_ok {scope : Scope} {arg value : Expr} {args values : List Expr}
    (h : Evaluates scope arg (.ok value)) (hrest : Values scope args (.ok values)) :
    Values scope (arg :: args) (.ok (value :: values)) := .cons h hrest

theorem Numbers.cons_ok {scope : Scope} {known : String} {arg : Expr} {x : Float}
    {args : List Expr} {xs : List Float} (h : Evaluates scope arg (.ok (.number x)))
    (hrest : Numbers scope known args (.ok xs)) :
    Numbers scope known (arg :: args) (.ok (x :: xs)) := .cons h hrest

/-! ## What follows the rules is evaluated -/

/-- **Outcomes settle on a result** if they are that result from some limit on. -/
def Settles {α : Type} (outcome : Nat → Outcome α) (result : Except Fault α) : Prop :=
  ∃ depth, ∀ limit, depth ≤ limit → outcome limit = .ofFaulty result

section Settles

variable {α β : Type} {f : Nat → Outcome α} {g : Nat → α → Outcome β}

theorem settles_of_forall {result : Except Fault α} (h : ∀ limit, f limit = .ofFaulty result) :
    Settles f result :=
  ⟨0, fun limit _ => h limit⟩

/-- The smallest limit decides nothing. -/
theorem settles_of_succ {result : Except Fault α}
    (h : Settles (fun limit => f (limit + 1)) result) : Settles f result := by
  obtain ⟨depth, h⟩ := h
  refine ⟨depth + 1, fun limit hlimit => ?_⟩
  obtain ⟨limit, rfl⟩ := Nat.exists_eq_add_of_le' (Nat.le_of_add_left_le hlimit)
  exact h limit (by omega)

theorem Settles.bind_fault {fault : Fault} (hf : Settles f (.error fault)) :
    Settles (fun limit => f limit >>= g limit) (.error fault) := by
  obtain ⟨depth, hf⟩ := hf
  refine ⟨depth, fun limit hlimit => ?_⟩
  simp only [hf limit hlimit]
  rfl

theorem Settles.bind {a : α} {result : Except Fault β} (hf : Settles f (.ok a))
    (hg : Settles (fun limit => g limit a) result) :
    Settles (fun limit => f limit >>= g limit) result := by
  obtain ⟨depthf, hf⟩ := hf
  obtain ⟨depthg, hg⟩ := hg
  refine ⟨max depthf depthg, fun limit hlimit => ?_⟩
  simp only [hf limit (Nat.max_le.mp hlimit).1]
  exact hg limit (Nat.max_le.mp hlimit).2

/-- A value that is only put in a shape settles where it does. -/
theorem Settles.map {result : Except Fault α} (hf : Settles f result) (k : α → β) :
    Settles (fun limit => f limit >>= fun a => .ok (k a)) (result.map k) := by
  obtain ⟨depth, hf⟩ := hf
  refine ⟨depth, fun limit hlimit => ?_⟩
  simp only [hf limit hlimit]
  cases result <;> rfl

end Settles

mutual

/-- **What follows the rules is evaluated**, at every limit that is large enough. -/
theorem Evaluates.settles {scope : Scope} {e : Expr} {result : Except Fault Expr} :
    Evaluates scope e result → Settles (fun limit => evaluate limit e scope) result
  | .number | .lambda | .builtin | .nil => settles_of_succ (settles_of_forall fun _ => rfl)
  | .symbol h => settles_of_succ <| settles_of_forall fun limit => by
    rw [evaluate_symbol, Scope.lookup, Scope.means_iff.mp h]
  | .unbound h => settles_of_succ <| settles_of_forall fun limit => by
    rw [evaluate_symbol, Scope.lookup, Scope.unbound_iff.mp h]
  | .notName h => settles_of_succ <| settles_of_forall fun limit => by
    rw [evaluate_of_head_ne h]
    rfl
  | .unboundHead h => settles_of_succ <| settles_of_forall fun limit => by
    rw [evaluate_call, Scope.lookup, Scope.unbound_iff.mp h]
    rfl
  | .call h happlies => by
    refine settles_of_succ ?_
    simp only [evaluate_call, Scope.lookup, Scope.means_iff.mp h]
    exact happlies.settles

/-- What follows the rules for procedures is the outcome of a call. -/
theorem Applies.settles {scope : Scope} {name : String} {args : List Expr} {procedure : Expr}
    {result : Except Fault Expr} : Applies scope name args procedure result →
      Settles (fun limit => callProcedure (evaluate limit) name args scope procedure) result
  | .notProcedure h => settles_of_forall fun limit => callProcedure_of_not_isProcedure h ..
  | .lambdaArity h => settles_of_forall fun limit => by
    rw [callProcedure, if_neg h]
    rfl
  | .lambdaFault h hargs => by
    simp only [callProcedure, if_pos h]
    exact hargs.settles.bind_fault
  | .lambda h hargs hbody => by
    simp only [callProcedure, if_pos h, Scope.extend_eq]
    exact hargs.settles.bind hbody.settles
  | .addFault hargs => by
    simp only [callProcedure, Primitive.call_add_eq_mapM]
    exact hargs.settles.bind_fault
  | .addRange hargs h => by
    simp only [callProcedure, Primitive.call_add_eq_mapM]
    exact hargs.settles.bind (settles_of_forall fun limit => if_neg (Bool.eq_false_iff.mp h))
  | .add hargs h => by
    simp only [callProcedure, Primitive.call_add_eq_mapM]
    exact hargs.settles.bind (settles_of_forall fun limit => if_pos h)
  | .subtractArity h => settles_of_forall fun limit => by
    rw [callProcedure, Primitive.call_subtract_of_length_ne h]
    rfl
  | .subtractFault hargs => by
    simp only [callProcedure, Primitive.call_subtract_eq_mapM]
    exact hargs.settles.bind_fault
  | .subtractRange hargs h => by
    simp only [callProcedure, Primitive.call_subtract_eq_mapM]
    exact hargs.settles.bind (settles_of_forall fun limit => if_neg (Bool.eq_false_iff.mp h))
  | .subtract hargs h => by
    simp only [callProcedure, Primitive.call_subtract_eq_mapM]
    exact hargs.settles.bind (settles_of_forall fun limit => if_pos h)
  | .abstractArity h => settles_of_forall fun limit => by
    rw [callProcedure, Primitive.call_abstract_of_length_ne h]
    rfl
  | .notParameters h => settles_of_forall fun limit => by
    rw [callProcedure, Primitive.call_abstract_of_ne h]
    rfl
  | .notParameter h => settles_of_forall fun limit => by
    rw [callProcedure, Primitive.call, Primitive.parameterNames_of_ne h]
    rfl
  | .abstract => settles_of_forall fun limit => by
    rw [callProcedure, Primitive.call, Primitive.parameterNames_map_symbol]
    rfl

theorem Values.settles {scope : Scope} {args : List Expr} {result : Except Fault (List Expr)} :
    Values scope args result →
      Settles (fun limit => args.mapM fun arg => evaluate limit arg scope) result
  | .nil => settles_of_forall fun _ => rfl
  | .fault h => by
    simp only [List.mapM_cons]
    exact h.settles.bind_fault
  | .cons h hrest => by
    simp only [List.mapM_cons]
    exact h.settles.bind (hrest.settles.map _)

theorem Numbers.settles {scope : Scope} {known : String} {args : List Expr}
    {result : Except Fault (List Float)} : Numbers scope known args result →
      Settles (fun limit =>
        args.mapM (Primitive.numberOf known fun arg => evaluate limit arg scope)) result
  | .nil => settles_of_forall fun _ => rfl
  | .fault h => by
    simp only [List.mapM_cons, Primitive.numberOf]
    exact h.settles.bind_fault.bind_fault
  | .notNumber h hvalue => by
    simp only [List.mapM_cons, Primitive.numberOf]
    refine (h.settles.bind (settles_of_forall fun limit => ?_)).bind_fault
    split
    · exact absurd rfl (hvalue _)
    · rfl
  | .cons h hrest => by
    simp only [List.mapM_cons, Primitive.numberOf]
    exact (h.settles.bind (settles_of_forall fun _ => rfl)).bind (hrest.settles.map _)

end

/-! ## What is evaluated follows the rules -/

/-- A new `lambda` is made by its rules, however arguments are evaluated. -/
theorem Applies.of_call_abstract {eval : Expr → Outcome Expr} {scope : Scope}
    {name known : String} {args : List Expr} {result : Except Fault Expr}
    (h : Primitive.call eval scope known .abstract args = .ofFaulty result) :
    Applies scope name args (.builtin known .abstract) result := by
  by_cases hlength : args.length = 2
  · obtain ⟨given, body, rfl⟩ := List.length_eq_two.mp hlength
    by_cases hgiven : ∃ parameters, given = .list parameters
    · obtain ⟨parameters, rfl⟩ := hgiven
      rw [Primitive.call] at h
      obtain ⟨names, rfl⟩ | ⟨names, given, rest, rfl, hne⟩ :=
        Primitive.parameters_cases parameters
      · rw [Primitive.parameterNames_map_symbol] at h
        obtain rfl := Outcome.ok_eq_ofFaulty h
        exact .abstract
      · rw [Primitive.parameterNames_of_ne hne] at h
        obtain rfl := Outcome.fail_eq_ofFaulty h
        exact .notParameter hne
    · rw [Primitive.call_abstract_of_ne (not_exists.mp hgiven)] at h
      obtain rfl := Outcome.fail_eq_ofFaulty h
      exact .notParameters (not_exists.mp hgiven)
  · rw [Primitive.call_abstract_of_length_ne hlength] at h
    obtain rfl := Outcome.fail_eq_ofFaulty h
    exact .abstractArity hlength

section Follows

variable {eval : Expr → Scope → Outcome Expr}
  (heval : ∀ e scope result, eval e scope = .ofFaulty result → Evaluates scope e result)

include heval

theorem Values.of_mapM {scope : Scope} {args : List Expr} {result : Except Fault (List Expr)}
    (h : (args.mapM fun arg => eval arg scope) = .ofFaulty result) : Values scope args result := by
  induction args generalizing result with
  | nil =>
    obtain rfl := Outcome.ok_eq_ofFaulty h
    exact .nil
  | cons arg args ih =>
    rw [List.mapM_cons] at h
    obtain ⟨fault, harg, rfl⟩ | ⟨value, harg, h⟩ := Outcome.bind_eq_ofFaulty h
    · exact .fault (heval arg scope _ harg)
    · obtain ⟨rest, hrest, rfl⟩ := Outcome.map_eq_ofFaulty h
      exact .cons (heval arg scope _ harg) (ih hrest)

theorem Numbers.of_mapM {scope : Scope} {known : String} {args : List Expr}
    {result : Except Fault (List Float)}
    (h : args.mapM (Primitive.numberOf known fun arg => eval arg scope) = .ofFaulty result) :
    Numbers scope known args result := by
  induction args generalizing result with
  | nil =>
    obtain rfl := Outcome.ok_eq_ofFaulty h
    exact .nil
  | cons arg args ih =>
    rw [List.mapM_cons, Primitive.numberOf, bind_assoc] at h
    obtain ⟨fault, harg, rfl⟩ | ⟨value, harg, h⟩ := Outcome.bind_eq_ofFaulty h
    · exact .fault (heval arg scope _ harg)
    · cases value with
      | number x =>
        obtain ⟨rest, hrest, rfl⟩ := Outcome.map_eq_ofFaulty h
        exact .cons (heval arg scope _ harg) (ih hrest)
      | _ =>
        obtain rfl := Outcome.fail_eq_ofFaulty h
        exact .notNumber (heval arg scope _ harg) (by simp)

theorem Applies.of_call_add {scope : Scope} {name known : String} {args : List Expr}
    {result : Except Fault Expr}
    (h : Primitive.call (fun arg => eval arg scope) scope known .add args = .ofFaulty result) :
    Applies scope name args (.builtin known .add) result := by
  rw [Primitive.call_add_eq_mapM] at h
  obtain ⟨fault, hargs, rfl⟩ | ⟨xs, hargs, h⟩ := Outcome.bind_eq_ofFaulty h
  · exact .addFault (.of_mapM heval hargs)
  · have hxs := Numbers.of_mapM heval hargs
    obtain ⟨hfinite, rfl⟩ | ⟨hfinite, rfl⟩ := Primitive.finite_eq_ofFaulty h
    · exact .add hxs hfinite
    · exact .addRange hxs hfinite

theorem Applies.of_call_subtract {scope : Scope} {name known : String} {args : List Expr}
    {result : Except Fault Expr}
    (h : Primitive.call (fun arg => eval arg scope) scope known .subtract args =
      .ofFaulty result) : Applies scope name args (.builtin known .subtract) result := by
  by_cases hlength : args.length = 2
  · obtain ⟨first, second, rfl⟩ := List.length_eq_two.mp hlength
    rw [Primitive.call_subtract_eq_mapM] at h
    obtain ⟨fault, hargs, rfl⟩ | ⟨xs, hargs, h⟩ := Outcome.bind_eq_ofFaulty h
    · exact .subtractFault (.of_mapM heval hargs)
    · have hxs := Numbers.of_mapM heval hargs
      obtain ⟨x, y, rfl⟩ := List.length_eq_two.mp (Outcome.length_of_mapM hargs)
      obtain ⟨hfinite, rfl⟩ | ⟨hfinite, rfl⟩ := Primitive.finite_eq_ofFaulty h
      · exact .subtract hxs hfinite
      · exact .subtractRange hxs hfinite
  · rw [Primitive.call_subtract_of_length_ne hlength] at h
    obtain rfl := Outcome.fail_eq_ofFaulty h
    exact .subtractArity hlength

/-- What a call comes to follows the rules for procedures. -/
theorem Applies.of_callProcedure {scope : Scope} {name : String} {args : List Expr}
    {procedure : Expr} {result : Except Fault Expr}
    (h : callProcedure eval name args scope procedure = .ofFaulty result) :
    Applies scope name args procedure result := by
  cases procedure with
  | builtin known primitive =>
    rw [callProcedure] at h
    cases primitive with
    | add => exact .of_call_add heval h
    | subtract => exact .of_call_subtract heval h
    | abstract => exact .of_call_abstract h
  | lambda parameters body captured =>
    by_cases harity : args.length = parameters.length
    · simp only [callProcedure, if_pos harity, Scope.extend_eq] at h
      obtain ⟨fault, hargs, rfl⟩ | ⟨values, hargs, h⟩ := Outcome.bind_eq_ofFaulty h
      · exact .lambdaFault harity (.of_mapM heval hargs)
      · exact .lambda harity (.of_mapM heval hargs) (heval _ _ _ h)
    · rw [callProcedure, if_neg harity] at h
      obtain rfl := Outcome.fail_eq_ofFaulty h
      exact .lambdaArity harity
  | _ =>
    obtain rfl := Outcome.fail_eq_ofFaulty h
    exact .notProcedure not_false

end Follows

/-- **What is evaluated follows the rules.** -/
theorem Evaluates.of_evaluate {limit : Nat} {e : Expr} {scope : Scope}
    {result : Except Fault Expr} (h : evaluate limit e scope = .ofFaulty result) :
    Evaluates scope e result := by
  -- One limit is enough to know the whole derivation: its parts are evaluated at smaller ones.
  induction limit generalizing e scope result with
  | zero => cases result <;> cases h
  | succ limit ih =>
    cases e with
    | number x =>
      obtain rfl := Outcome.ok_eq_ofFaulty h
      exact .number
    | lambda parameters body captured =>
      obtain rfl := Outcome.ok_eq_ofFaulty h
      exact .lambda
    | builtin known primitive =>
      obtain rfl := Outcome.ok_eq_ofFaulty h
      exact .builtin
    | symbol name =>
      rw [evaluate_symbol, Scope.lookup] at h
      split at h
      · next hfind =>
        obtain rfl := Outcome.ok_eq_ofFaulty h
        exact .symbol (Scope.means_iff.mpr hfind)
      · next hfind =>
        obtain rfl := Outcome.fail_eq_ofFaulty h
        exact .unbound (Scope.unbound_iff.mpr hfind)
    | list es =>
      cases es with
      | nil =>
        obtain rfl := Outcome.ok_eq_ofFaulty h
        exact .nil
      | cons head args =>
        by_cases hhead : ∃ name, head = .symbol name
        · obtain ⟨name, rfl⟩ := hhead
          rw [evaluate_call, Scope.lookup] at h
          cases hfind : scope.find? name with
          | none =>
            rw [hfind] at h
            obtain rfl := Outcome.fail_eq_ofFaulty h
            exact .unboundHead (Scope.unbound_iff.mpr hfind)
          | some procedure =>
            rw [hfind] at h
            exact .call (Scope.means_iff.mpr hfind) (.of_callProcedure (fun _ _ _ => ih) h)
        · have hne := not_exists.mp hhead
          rw [evaluate_of_head_ne hne] at h
          obtain rfl := Outcome.fail_eq_ofFaulty h
          exact .notName hne

/-! ## The two agree -/

/-- An expression comes to one result at most. -/
theorem Evaluates.unique {scope : Scope} {e : Expr} {result result' : Except Fault Expr}
    (h : Evaluates scope e result) (h' : Evaluates scope e result') : result = result' := by
  obtain ⟨depth, hdepth⟩ := h.settles
  obtain ⟨depth', hdepth'⟩ := h'.settles
  refine Outcome.ofFaulty_injective ((hdepth (max depth depth') ?_).symm.trans (hdepth' _ ?_))
  · exact Nat.le_max_left depth depth'
  · exact Nat.le_max_right depth depth'

/-- **Evaluation is evaluation by the rules**: an expression comes to a value or a fault at all
limits that are large enough if and only if it comes to that by the rules. -/
theorem evaluates_iff {scope : Scope} {e : Expr} {result : Except Fault Expr} :
    Evaluates scope e result ↔
      ∃ depth, ∀ limit, depth ≤ limit → evaluate limit e scope = .ofFaulty result :=
  ⟨Evaluates.settles, fun ⟨depth, h⟩ => .of_evaluate (h depth (Nat.le_refl _))⟩

/-- The call `(f 7 8 9)`, where `f` has the parameters `x`, `y` and `x` and the body `(- x z)`: the
later of the two values of `x` counts, and the `z` of the scope that `f` captured, not the one that
the call is made in. -/
theorem evaluates_iff_shadowed :
    let captured : Scope := [("z", .number 1)] :: Scope.standard
    let f : Expr := .lambda ["x", "y", "x"] (.list [.symbol "-", .symbol "x", .symbol "z"]) captured
    let scope : Scope := [("z", .number 5), ("f", f)] :: Scope.standard
    let e : Expr := .list [.symbol "f", .number 7, .number 8, .number 9]
    Evaluates scope e (.ok (.number 8)) ∧
      ∃ depth, ∀ limit, depth ≤ limit → evaluate limit e scope = .ok (.number 8) := by
  intro captured f scope e
  have hvalues : Values scope [.number 7, .number 8, .number 9]
      (.ok [.number 7, .number 8, .number 9]) :=
    .cons_ok .number (.cons_ok .number (.cons_ok .number .nil))
  have hnumbers : Numbers ([("x", .number 9), ("y", .number 8), ("x", .number 7)] :: captured)
      "-" [.symbol "x", .symbol "z"] (.ok [9, 1]) :=
    .cons_ok (.symbol (.inner rfl)) (.cons_ok (.symbol (.outer rfl (.inner rfl))) .nil)
  have hbody : Evaluates ([("x", .number 9), ("y", .number 8), ("x", .number 7)] :: captured)
      (.list [.symbol "-", .symbol "x", .symbol "z"]) (.ok (.number (9 - 1))) :=
    .call (.outer rfl (.outer rfl (.inner rfl))) (.subtract hnumbers (by decide +kernel))
  rw [show (9 : Float) - 1 = 8 by decide +kernel] at hbody
  have hrules : Evaluates scope e (.ok (.number 8)) :=
    .call (.inner rfl) (.lambda rfl hvalues hbody)
  exact ⟨hrules, evaluates_iff.mp hrules⟩

end Lisplet
