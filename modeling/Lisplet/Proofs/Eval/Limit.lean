import Lisplet.Proofs.Eval.Direct

/-!
# Proofs/Eval/Limit — the limit changes no answer

An outcome at one limit is the outcome at every larger one, unless it is that the limit was hit:
`Outcome.Below`, which calls keep (`below_callProcedure`) and so evaluation does (`below_evaluate`).
Nor can a program tell that the limit was hit.  What an evaluation nests are the evaluations of the
arguments that it needs and of bodies (`Nests`), and it hits the limit exactly if one of them does
(`evaluate_succ_eq_tooDeep_iff`); so it hits the limit exactly if evaluations are nested in one
another down to where none are left (`evaluate_eq_tooDeep_iff`).
-/

namespace Lisplet

/-! ## Outcomes at a smaller limit -/

namespace Outcome

variable {α β : Type}

/-- **The outcome at a smaller limit**: the limit, or the same outcome. -/
def Below (r r' : Outcome α) : Prop := r = .error .tooDeep ∨ r = r'

theorem Below.refl (r : Outcome α) : r.Below r := .inr rfl

theorem Below.bind {r r' : Outcome α} {f f' : α → Outcome β} (h : r.Below r')
    (hf : ∀ a, (f a).Below (f' a)) : (r >>= f).Below (r' >>= f') := by
  obtain rfl | rfl := h
  · exact .inl rfl
  · cases r with
    | ok a => exact hf a
    | error halt => exact .refl _

theorem below_mapM {f f' : α → Outcome β} {xs : List α} (h : ∀ x ∈ xs, (f x).Below (f' x)) :
    (xs.mapM f).Below (xs.mapM f') := by
  induction xs with
  | nil => exact .refl _
  | cons x xs ih =>
    rw [List.mapM_cons, List.mapM_cons]
    refine (h x List.mem_cons_self).bind fun y => ?_
    exact (ih fun x' hx' => h x' (List.mem_cons_of_mem x hx')).bind fun ys => .refl _

theorem ofFaulty_ne_tooDeep (result : Except Fault α) : ofFaulty result ≠ .error .tooDeep := by
  cases result <;> simp [ofFaulty]

/-- An answer at a smaller limit is the answer. -/
theorem Below.eq_ofFaulty {r r' : Outcome α} (h : r.Below r') {result : Except Fault α}
    (hr : r = .ofFaulty result) : r' = .ofFaulty result := by
  obtain hdeep | rfl := h
  · exact absurd (hr.symm.trans hdeep) (ofFaulty_ne_tooDeep result)
  · exact hr

/-- Where a larger limit is hit, so is a smaller one. -/
theorem Below.eq_tooDeep {r r' : Outcome α} (h : r.Below r') (hr : r' = .error .tooDeep) :
    r = .error .tooDeep := h.elim id fun heq => heq.trans hr

end Outcome

/-! ## A larger limit -/

namespace Primitive

variable {eval eval' : Expr → Outcome Expr} {args : List Expr}

theorem below_numberOf {arg : Expr} (h : (eval arg).Below (eval' arg)) (name : String) :
    (numberOf name eval arg).Below (numberOf name eval' arg) :=
  h.bind fun _ => .refl _

theorem below_call (h : ∀ arg ∈ args, (eval arg).Below (eval' arg)) (scope : Scope)
    (name : String) (primitive : Primitive) :
    (call eval scope name primitive args).Below (call eval' scope name primitive args) := by
  have hrow : (args.mapM (numberOf name eval)).Below (args.mapM (numberOf name eval')) :=
    Outcome.below_mapM fun arg harg => below_numberOf (h arg harg) name
  cases primitive with
  | add =>
    rw [call_add_eq_mapM, call_add_eq_mapM]
    exact hrow.bind fun _ => .refl _
  | subtract =>
    by_cases hlength : args.length = 2
    · obtain ⟨first, second, rfl⟩ := List.length_eq_two.mp hlength
      rw [call_subtract_eq_mapM, call_subtract_eq_mapM]
      exact hrow.bind fun _ => .refl _
    · rw [call_subtract_of_length_ne hlength, call_subtract_of_length_ne hlength]
      exact .refl _
  | abstract => exact .refl _

end Primitive

/-- A call keeps the order of outcomes if evaluation does. -/
theorem below_callProcedure {eval eval' : Expr → Scope → Outcome Expr}
    (h : ∀ e scope, (eval e scope).Below (eval' e scope)) (name : String) (args : List Expr)
    (scope : Scope) (procedure : Expr) :
    (callProcedure eval name args scope procedure).Below
      (callProcedure eval' name args scope procedure) := by
  cases procedure with
  | builtin known primitive =>
    exact Primitive.below_call (fun arg _ => h arg scope) scope known primitive
  | lambda parameters body captured =>
    rw [callProcedure, callProcedure]
    split
    · exact (Outcome.below_mapM fun arg _ => h arg scope).bind fun values => h body _
    · exact .refl _
  | _ => exact .refl _

/-- **A larger limit changes no answer.** -/
theorem below_evaluate {limit limit' : Nat} (h : limit ≤ limit') (e : Expr) (scope : Scope) :
    (evaluate limit e scope).Below (evaluate limit' e scope) := by
  induction limit generalizing limit' e scope with
  | zero => exact .inl rfl
  | succ limit ih =>
    obtain ⟨limit', rfl⟩ := Nat.exists_eq_add_of_le' (Nat.le_of_add_left_le h)
    have hle : limit ≤ limit' := by omega
    cases e with
    | number | lambda | builtin | symbol => exact .refl _
    | list es =>
      cases es with
      | nil => exact .refl _
      | cons head args =>
        by_cases hhead : ∃ name, head = .symbol name
        · obtain ⟨name, rfl⟩ := hhead
          rw [evaluate_call, evaluate_call]
          exact (Outcome.Below.refl _).bind fun procedure =>
            below_callProcedure (fun e scope => ih hle e scope) name args scope procedure
        · have hne := not_exists.mp hhead
          rw [evaluate_of_head_ne hne, evaluate_of_head_ne hne]
          exact .refl _

/-! ## Where the limit is hit -/

namespace Primitive

/-- Whether a primitive evaluates its arguments, given this many. -/
def IsStrict (count : Nat) : Primitive → Prop
  | .add => True
  | .subtract => count = 2
  | .abstract => False

section

variable {eval : Expr → Outcome Expr} {name : String} {arg : Expr}

theorem numberOf_eq_ok_iff {x : Float} :
    numberOf name eval arg = .ok x ↔ eval arg = .ok (.number x) := by
  rw [numberOf]
  match eval arg with
  | .ok (.number y) => simp
  | .ok (.symbol _) | .ok (.list _) | .ok (.lambda ..) | .ok (.builtin ..) => simp [Outcome.fail]
  | .error halt => simp

/-- An argument is no number if its evaluation halts, or comes to something else. -/
theorem numberOf_eq_error_iff {halt : Halt} : numberOf name eval arg = .error halt ↔
    eval arg = .error halt ∨ ∃ value, eval arg = .ok value ∧ (∀ x, value ≠ .number x) ∧
      halt = .fault (.notNumber name value) := by
  rw [numberOf]
  match eval arg with
  | .ok (.number y) => simp
  | .ok (.symbol _) | .ok (.list _) | .ok (.lambda ..) | .ok (.builtin ..) =>
    simp [Outcome.fail, eq_comm]
  | .error halt => simp

theorem numberOf_eq_tooDeep_iff :
    numberOf name eval arg = .error .tooDeep ↔ eval arg = .error .tooDeep := by
  simp [numberOf_eq_error_iff]

theorem finite_ne_tooDeep (name : String) (x : Float) : finite name x ≠ .error .tooDeep := by
  rw [finite_eq_directNumber]
  exact Outcome.ofFaulty_ne_tooDeep _

theorem call_abstract_ne_tooDeep (eval : Expr → Outcome Expr) (scope : Scope) (name : String)
    (args : List Expr) : call eval scope name .abstract args ≠ .error .tooDeep := by
  by_cases hlength : args.length = 2
  · obtain ⟨given, body, rfl⟩ := List.length_eq_two.mp hlength
    rw [call_abstract_eq_directLambda]
    exact Outcome.ofFaulty_ne_tooDeep _
  · rw [call_abstract_of_length_ne hlength]
    simp [Outcome.fail]

/-- **A primitive hits the limit where it looks for the numbers that its arguments are.** -/
theorem call_eq_tooDeep_iff {args : List Expr} (scope : Scope) (primitive : Primitive) :
    call eval scope name primitive args = .error .tooDeep ↔
      primitive.IsStrict args.length ∧ args.mapM (numberOf name eval) = .error .tooDeep := by
  cases primitive with
  | add =>
    rw [call_add_eq_mapM, Outcome.bind_eq_error_iff]
    simp [IsStrict, finite_ne_tooDeep]
  | subtract =>
    by_cases hlength : args.length = 2
    · obtain ⟨first, second, rfl⟩ := List.length_eq_two.mp hlength
      rw [call_subtract_eq_mapM, Outcome.bind_eq_error_iff]
      simp [IsStrict, finite_ne_tooDeep]
    · rw [call_subtract_of_length_ne hlength]
      simp [IsStrict, hlength, Outcome.fail]
  | abstract => simp [IsStrict, call_abstract_ne_tooDeep]

end

end Primitive

/-- **What a call evaluates**, by what its head means: an argument once those before it have come to
values, which for a primitive are numbers, and the body of a `lambda` once all arguments have. -/
inductive Asks (eval : Expr → Scope → Outcome Expr) (scope : Scope) (args : List Expr) :
    Expr → Expr → Scope → Prop
  | operand {known : String} {primitive : Primitive} {before after : List Expr} {arg : Expr} :
      primitive.IsStrict args.length → args = before ++ arg :: after →
      (∀ b ∈ before, ∃ x, eval b scope = .ok (.number x)) →
      Asks eval scope args (.builtin known primitive) arg scope
  | argument {parameters : List String} {body : Expr} {captured : Scope}
      {before after : List Expr} {arg : Expr} : args.length = parameters.length →
      args = before ++ arg :: after → (∀ b ∈ before, ∃ value, eval b scope = .ok value) →
      Asks eval scope args (.lambda parameters body captured) arg scope
  | body {parameters : List String} {body : Expr} {captured : Scope} {values : List Expr} :
      args.length = parameters.length → args.mapM (fun arg => eval arg scope) = .ok values →
      Asks eval scope args (.lambda parameters body captured) body
        ((captured.home scope).extend (parameters.zip values))

/-- A call hits the limit exactly if something that it evaluates does. -/
theorem callProcedure_eq_tooDeep_iff {eval : Expr → Scope → Outcome Expr} {name : String}
    {args : List Expr} {scope : Scope} {procedure : Expr} :
    callProcedure eval name args scope procedure = .error .tooDeep ↔
      ∃ e' scope', Asks eval scope args procedure e' scope' ∧
        eval e' scope' = .error .tooDeep := by
  cases procedure with
  | builtin known primitive =>
    rw [callProcedure, Primitive.call_eq_tooDeep_iff, Outcome.mapM_eq_error_iff]
    simp only [Primitive.numberOf_eq_ok_iff, Primitive.numberOf_eq_tooDeep_iff]
    constructor
    · rintro ⟨hstrict, before, arg, after, hargs, hbefore, harg⟩
      exact ⟨arg, scope, .operand hstrict hargs hbefore, harg⟩
    · rintro ⟨e', scope', hasks, hdeep⟩
      cases hasks with
      | operand hstrict hargs hbefore =>
        exact ⟨hstrict, _, _, _, hargs, hbefore, hdeep⟩
  | lambda parameters body captured =>
    rw [callProcedure]
    split
    · next harity =>
      rw [Outcome.bind_eq_error_iff, Outcome.mapM_eq_error_iff]
      constructor
      · rintro (⟨before, arg, after, hargs, hbefore, harg⟩ | ⟨values, hvalues, hbody⟩)
        · exact ⟨arg, scope, .argument harity hargs hbefore, harg⟩
        · exact ⟨body, _, .body harity hvalues, hbody⟩
      · rintro ⟨e', scope', hasks, hdeep⟩
        cases hasks with
        | argument _ hargs hbefore => exact .inl ⟨_, _, _, hargs, hbefore, hdeep⟩
        | body _ hvalues => exact .inr ⟨_, hvalues, hdeep⟩
    · next harity =>
      simp only [Outcome.fail, Except.error.injEq, reduceCtorEq, false_iff]
      rintro ⟨e', scope', hasks, -⟩
      cases hasks with
      | argument hlength | body hlength => exact harity hlength
  | number | symbol | list =>
    simp only [callProcedure, Outcome.fail, Except.error.injEq, reduceCtorEq, false_iff]
    rintro ⟨e', scope', hasks, -⟩
    cases hasks

/-- **An evaluation nests another one** if it is of a call that evaluates an argument or a body. -/
def Nests (limit : Nat) (e : Expr) (scope : Scope) (e' : Expr) (scope' : Scope) : Prop :=
  ∃ name args procedure, e = .list (.symbol name :: args) ∧ scope.find? name = some procedure ∧
    Asks (evaluate limit) scope args procedure e' scope'

/-- Only a call can hit the limit once it is entered. -/
theorem exists_call_of_tooDeep {limit : Nat} {e : Expr} {scope : Scope}
    (h : evaluate (limit + 1) e scope = .error .tooDeep) :
    ∃ name args, e = .list (.symbol name :: args) := by
  cases e with
  | number | lambda | builtin => cases h
  | symbol name => exact absurd h (Outcome.ofFaulty_ne_tooDeep _)
  | list es =>
    cases es with
    | nil => cases h
    | cons head args =>
      by_cases hhead : ∃ name, head = .symbol name
      · obtain ⟨name, rfl⟩ := hhead
        exact ⟨name, args, rfl⟩
      · rw [evaluate_of_head_ne (not_exists.mp hhead)] at h
        cases h

/-- **An evaluation hits the limit exactly if one that it nests does.** -/
theorem evaluate_succ_eq_tooDeep_iff {limit : Nat} {e : Expr} {scope : Scope} :
    evaluate (limit + 1) e scope = .error .tooDeep ↔
      ∃ e' scope', Nests limit e scope e' scope' ∧
        evaluate limit e' scope' = .error .tooDeep := by
  constructor
  · intro h
    obtain ⟨name, args, rfl⟩ := exists_call_of_tooDeep h
    rw [evaluate_call, Scope.lookup] at h
    cases hfind : scope.find? name with
    | none =>
      rw [hfind] at h
      cases h
    | some procedure =>
      rw [hfind] at h
      obtain ⟨e', scope', hasks, hdeep⟩ := callProcedure_eq_tooDeep_iff.mp h
      exact ⟨e', scope', ⟨name, args, procedure, rfl, hfind, hasks⟩, hdeep⟩
  · rintro ⟨e', scope', ⟨name, args, procedure, rfl, hfind, hasks⟩, hdeep⟩
    rw [evaluate_call, Scope.lookup, hfind]
    exact callProcedure_eq_tooDeep_iff.mpr ⟨e', scope', hasks, hdeep⟩

/-- **An evaluation inside another one**, each with the limit that is left to it. -/
inductive Inside : Nat → Expr → Scope → Nat → Expr → Scope → Prop
  | refl {limit : Nat} {e : Expr} {scope : Scope} : Inside limit e scope limit e scope
  | nested {limit limit' : Nat} {e e' e'' : Expr} {scope scope' scope'' : Scope} :
      Nests limit e scope e' scope' → Inside limit e' scope' limit' e'' scope'' →
      Inside (limit + 1) e scope limit' e'' scope''

/-- **Nothing around an evaluation that hits the limit goes on.** -/
theorem Inside.eq_tooDeep {limit limit' : Nat} {e e' : Expr} {scope scope' : Scope}
    (h : Inside limit e scope limit' e' scope')
    (hdeep : evaluate limit' e' scope' = .error .tooDeep) :
    evaluate limit e scope = .error .tooDeep := by
  induction h with
  | refl => exact hdeep
  | nested hnests _ ih => exact evaluate_succ_eq_tooDeep_iff.mpr ⟨_, _, hnests, ih hdeep⟩

/-- **The limit is hit exactly where evaluations are inside one another down to the last.** -/
theorem evaluate_eq_tooDeep_iff {limit : Nat} {e : Expr} {scope : Scope} :
    evaluate limit e scope = .error .tooDeep ↔
      ∃ e' scope', Inside limit e scope 0 e' scope' := by
  constructor
  · intro h
    induction limit generalizing e scope with
    | zero => exact ⟨e, scope, .refl⟩
    | succ limit ih =>
      obtain ⟨e', scope', hnests, hdeep⟩ := evaluate_succ_eq_tooDeep_iff.mp h
      obtain ⟨e'', scope'', hinside⟩ := ih hdeep
      exact ⟨e'', scope'', .nested hnests hinside⟩
  · rintro ⟨e', scope', hinside⟩
    exact hinside.eq_tooDeep rfl

/-! ## What the limit is for -/

/-- **The limit changes no answer, only whether there is one.**  A value or a fault at one limit is
the value or the fault at every larger one, so where a larger limit is hit, every smaller one is.
And the limit passes through everything: an evaluation hits it exactly if that of an argument it
evaluates or of a body does, however deep inside. -/
theorem limit_changes_no_answer (e : Expr) (scope : Scope) (limit : Nat) :
    (∀ limit', limit ≤ limit' →
      (∀ result : Except Fault Expr, evaluate limit e scope = .ofFaulty result →
        evaluate limit' e scope = .ofFaulty result) ∧
      (evaluate limit' e scope = .error .tooDeep → evaluate limit e scope = .error .tooDeep)) ∧
    (evaluate (limit + 1) e scope = .error .tooDeep ↔
      ∃ e' scope', Nests limit e scope e' scope' ∧ evaluate limit e' scope' = .error .tooDeep) ∧
    (∀ limit' e' scope', Inside limit e scope limit' e' scope' →
      evaluate limit' e' scope' = .error .tooDeep → evaluate limit e scope = .error .tooDeep) ∧
    (evaluate limit e scope = .error .tooDeep ↔ ∃ e' scope', Inside limit e scope 0 e' scope') := by
  refine ⟨fun limit' hlimit => ?_, evaluate_succ_eq_tooDeep_iff,
    fun limit' e' scope' => Inside.eq_tooDeep, evaluate_eq_tooDeep_iff⟩
  have hbelow := below_evaluate hlimit e scope
  exact ⟨fun result => hbelow.eq_ofFaulty, hbelow.eq_tooDeep⟩

/-- The call `(f (f x))`, where `f` gives back what it is applied to, at limits of three and two:
its argument `(f x)` is inside of it, and takes two. -/
theorem limit_changes_no_answer_twice :
    let scope := Scope.standard.extend
      [("f", .lambda ["y"] (.symbol "y") Scope.standard), ("x", .number 2)]
    let once : Expr := .list [.symbol "f", .symbol "x"]
    let twice : Expr := .list [.symbol "f", once]
    evaluate 3 twice scope = .ofFaulty (.ok (.number 2)) ∧
      evaluate 1000 twice scope = .ofFaulty (.ok (.number 2)) ∧
      evaluate 1 once scope = .error .tooDeep ∧ Inside 2 twice scope 1 once scope ∧
      evaluate 2 twice scope = .error .tooDeep ∧ evaluate 1 twice scope = .error .tooDeep := by
  intro scope once twice
  have hargs : [once] = [] ++ once :: [] := rfl
  have hnests : Nests 1 twice scope once scope :=
    ⟨"f", [once], _, rfl, rfl, .argument rfl hargs (by simp)⟩
  have hinside : Inside 2 twice scope 1 once scope := .nested hnests .refl
  have hdeep : evaluate 2 twice scope = .error .tooDeep :=
    (limit_changes_no_answer twice scope 2).2.2.1 1 once scope hinside rfl
  exact ⟨rfl, ((limit_changes_no_answer twice scope 3).1 1000 (by decide)).1 (.ok (.number 2)) rfl,
    rfl, hinside, hdeep, ((limit_changes_no_answer twice scope 1).1 2 (by decide)).2 hdeep⟩

end Lisplet
