import Lisplet.Proofs.Eval.Call
import Lisplet.Proofs.Expr.Readable
import Lisplet.Proofs.Scope
import Mathlib.Data.List.Forall2

/-!
# Proofs/Eval/Scoping — scoping is lexical

What an expression comes to depends on the scope around it by the values of the names that it
mentions, and by nothing else.  Two evaluations that differ in the rest of their scopes make
procedures that differ in what they captured and hand them to one another, so their values are not
equal but **agree**: a `lambda` agrees with one of the same parameters and body whose scope gives
agreeing values to every name that the body mentions.  Evaluation keeps agreement
(`rel_evaluate`), and agreeing values are written alike.
-/

namespace Lisplet

/-! ## Names and scopes -/

/-- **An expression mentions a name** if the name is a symbol in it.  What a `lambda` mentions is
the concern of the scope it captured. -/
inductive Expr.Mentions (name : String) : Expr → Prop
  | symbol : Mentions name (.symbol name)
  | list {e : Expr} {es : List Expr} : e ∈ es → Mentions name e → Mentions name (.list es)

/-- **Every `lambda` captured a scope**: those in an expression, in the bodies of these and in the
values that the captured scopes hold. -/
inductive Expr.Scoped : Expr → Prop
  | number {x : Float} : Scoped (.number x)
  | symbol {name : String} : Scoped (.symbol name)
  | builtin {name : String} {primitive : Primitive} : Scoped (.builtin name primitive)
  | list {es : List Expr} : (∀ e ∈ es, Scoped e) → Scoped (.list es)
  | lambda {parameters : List String} {body : Expr} {captured : Scope} : captured ≠ [] →
      Scoped body → (∀ frame ∈ captured, ∀ b ∈ frame, Scoped b.2) →
      Scoped (.lambda parameters body captured)

/-- Every `lambda` that a scope holds captured a scope. -/
def Scope.Scoped (scope : Scope) : Prop := ∀ frame ∈ scope, ∀ b ∈ frame, b.2.Scoped

/-- What is read from a text holds no `lambda`. -/
theorem Expr.Readable.scoped {e : Expr} (h : e.Readable) : e.Scoped := by
  induction h with
  | number => exact .number
  | symbol => exact .symbol
  | list _ ih => exact .list ih

theorem Scope.Scoped.of_find? {scope : Scope} (h : scope.Scoped) {name : String} {value : Expr}
    (hfind : scope.find? name = some value) : value.Scoped := by
  obtain ⟨frame, hframe, hb⟩ := exists_mem_of_find? hfind
  exact h frame hframe _ hb

/-! ## Agreement -/

/-- **Two values agree** if they are the same, or a `lambda` each with the same parameters and body
and with scopes that give agreeing values to every name that the body mentions. -/
inductive Expr.Agree : Expr → Expr → Prop
  | same {value : Expr} : value.Scoped → Agree value value
  | lambda {parameters : List String} {body : Expr} {captured captured' : Scope} :
      captured ≠ [] → captured' ≠ [] → body.Scoped →
      (∀ name, body.Mentions name →
        Option.Rel Agree (captured.find? name) (captured'.find? name)) →
      Agree (.lambda parameters body captured) (.lambda parameters body captured')

/-- Two scopes agree for an expression if they give agreeing values to every name it mentions. -/
def Scope.Agree (e : Expr) (s t : Scope) : Prop :=
  ∀ name, e.Mentions name → Option.Rel Expr.Agree (s.find? name) (t.find? name)

namespace Scope

theorem Agree.of_find?_eq {e : Expr} {s t : Scope} (hs : s.Scoped)
    (h : ∀ name, e.Mentions name → s.find? name = t.find? name) : Agree e s t := by
  intro name hname
  rw [← h name hname]
  cases hfind : s.find? name with
  | none => exact .none
  | some value => exact .some (.same (hs.of_find? hfind))

theorem Agree.refl {s : Scope} (h : s.Scoped) (e : Expr) : Agree e s s :=
  .of_find?_eq h fun _ _ => rfl

theorem Agree.of_mem {e : Expr} {es : List Expr} {s t : Scope} (h : Agree (.list es) s t)
    (he : e ∈ es) : Agree e s t := fun name hname => h name (.list he hname)

theorem rel_or {R : Expr → Expr → Prop} {a a' b b' : Option Expr} (ha : Option.Rel R a a')
    (hb : Option.Rel R b b') : Option.Rel R (a.or b) (a'.or b') := by
  cases ha with
  | some h => exact .some h
  | none => exact hb

/-- Frames that bind the same names to agreeing values are looked up with agreement. -/
theorem rel_lookup {frame frame' : Frame}
    (h : List.Forall₂ (fun b b' => b.1 = b'.1 ∧ Expr.Agree b.2 b'.2) frame frame') (name : String) :
    Option.Rel Expr.Agree (frame.lookup name) (frame'.lookup name) := by
  induction h with
  | nil => exact .none
  | @cons b b' _ _ hb _ ih =>
    obtain ⟨key, value⟩ := b
    obtain ⟨key', value'⟩ := b'
    obtain ⟨rfl, hvalue⟩ := hb
    simp only [List.lookup_cons]
    cases name == key with
    | true => exact .some hvalue
    | false => exact ih

/-- **Agreement survives a call**: agreeing values are bound to the same parameters. -/
theorem Agree.extend_zip {e : Expr} {s t : Scope} (h : Agree e s t) (parameters : List String)
    {values values' : List Expr} (hvalues : List.Forall₂ Expr.Agree values values') :
    Agree e (s.extend (parameters.zip values)) (t.extend (parameters.zip values')) := by
  have hframe : List.Forall₂ (fun b b' => b.1 = b'.1 ∧ Expr.Agree b.2 b'.2)
      (parameters.zip values) (parameters.zip values') := by
    induction parameters generalizing values values' with
    | nil => exact .nil
    | cons parameter parameters ih =>
      cases hvalues with
      | nil => exact .nil
      | cons hvalue hvalues => exact .cons ⟨rfl, hvalue⟩ (ih hvalues)
  intro name hname
  rw [extend, extend, find?_cons, find?_cons]
  exact rel_or (rel_lookup (List.rel_reverse hframe) name) (h name hname)

end Scope

namespace Expr

/-- A procedure that captured a scope agrees with what it agrees with in its body. -/
theorem Agree.of_lambda {parameters : List String} {body value : Expr} {captured : Scope}
    (h : Agree (.lambda parameters body captured) value) :
    ∃ captured' : Scope, value = .lambda parameters body captured' ∧ captured ≠ [] ∧
      captured' ≠ [] ∧ body.Scoped ∧ Scope.Agree body captured captured' := by
  cases h with
  | same h =>
    cases h with
    | lambda hne hbody hscoped => exact ⟨captured, rfl, hne, hne, hbody, .refl hscoped body⟩
  | lambda hne hne' hbody hagree => exact ⟨_, rfl, hne, hne', hbody, hagree⟩

/-- **Agreeing values are written alike.** -/
theorem Agree.source_eq {value value' : Expr} (h : Agree value value') :
    value.source = value'.source := by
  cases h <;> rfl

end Expr

/-- **Two faults agree** if they are the same, or blame agreeing values that are no numbers. -/
inductive Fault.Agree : Fault → Fault → Prop
  | same {fault : Fault} : Agree fault fault
  | notNumber {name : String} {value value' : Expr} : value.Agree value' →
      Agree (.notNumber name value) (.notNumber name value')

namespace Fault.Agree

theorem kind_eq {fault fault' : Fault} (h : Agree fault fault') : fault.kind = fault'.kind := by
  cases h <;> rfl

theorem message_eq {fault fault' : Fault} (h : Agree fault fault') :
    fault.message = fault'.message := by
  cases h with
  | same => rfl
  | notNumber h => rw [message, message, h.source_eq]

end Fault.Agree

/-! ## Outcomes that correspond -/

namespace Outcome

variable {α α' β β' : Type} {R : α → α' → Prop} {Q : β → β' → Prop}

/-- **Two outcomes correspond** by a relation on values: they end alike, with values that are
related, with faults that agree, or both at the limit. -/
inductive Rel (R : α → α' → Prop) : Outcome α → Outcome α' → Prop
  | ok {a : α} {a' : α'} : R a a' → Rel R (.ok a) (.ok a')
  | fault {fault fault' : Fault} : fault.Agree fault' →
      Rel R (.error (.fault fault)) (.error (.fault fault'))
  | tooDeep : Rel R (.error .tooDeep) (.error .tooDeep)

theorem rel_fail (fault : Fault) : Rel R (fail fault) (fail fault) := .fault .same

theorem Rel.bind {r : Outcome α} {r' : Outcome α'} {f : α → Outcome β} {f' : α' → Outcome β'}
    (h : Rel R r r') (hf : ∀ a a', R a a' → Rel Q (f a) (f' a')) : Rel Q (r >>= f) (r' >>= f') := by
  cases h with
  | ok ha => exact hf _ _ ha
  | fault hfault => exact .fault hfault
  | tooDeep => exact .tooDeep

/-- Rows of corresponding outcomes correspond. -/
theorem rel_mapM {γ : Type} {f : γ → Outcome α} {f' : γ → Outcome α'} {xs : List γ}
    (h : ∀ x ∈ xs, Rel R (f x) (f' x)) : Rel (List.Forall₂ R) (xs.mapM f) (xs.mapM f') := by
  induction xs with
  | nil => exact .ok .nil
  | cons x xs ih =>
    rw [List.mapM_cons, List.mapM_cons]
    refine (h x List.mem_cons_self).bind fun y y' hy => ?_
    exact (ih fun x' hx' => h x' (List.mem_cons_of_mem x hx')).bind fun ys ys' hys =>
      .ok (.cons hy hys)

end Outcome

/-! ## Evaluation keeps agreement -/

namespace Primitive

section

variable {eval eval' : Expr → Outcome Expr}

theorem rel_numberOf {arg : Expr} (h : Outcome.Rel Expr.Agree (eval arg) (eval' arg))
    (name : String) : Outcome.Rel (· = ·) (numberOf name eval arg) (numberOf name eval' arg) := by
  refine h.bind fun value value' hvalue => ?_
  cases hvalue with
  | same =>
    split
    · exact .ok rfl
    · exact .fault .same
  | lambda hne hne' hbody hagree => exact .fault (.notNumber (.lambda hne hne' hbody hagree))

theorem rel_total {args : List Expr}
    (h : ∀ arg ∈ args, Outcome.Rel Expr.Agree (eval arg) (eval' arg)) (name : String)
    (sum : Float) :
    Outcome.Rel (· = ·) (total name eval sum args) (total name eval' sum args) := by
  rw [total_eq_mapM, total_eq_mapM]
  refine (Outcome.rel_mapM fun arg harg => rel_numberOf (h arg harg) name).bind fun xs xs' hxs => ?_
  rw [List.forall₂_eq_eq_eq] at hxs
  exact .ok (by rw [hxs])

theorem rel_finite (name : String) (x : Float) :
    Outcome.Rel Expr.Agree (finite name x) (finite name x) := by
  rw [finite]
  split
  · exact .ok (.same .number)
  · exact Outcome.rel_fail _

/-- **A primitive keeps agreement**: a new `lambda` captures scopes that agree for its body. -/
theorem rel_call {args : List Expr} {s t : Scope} (hs : s ≠ []) (ht : t ≠ [])
    (hargs : ∀ arg ∈ args, arg.Scoped) (hagree : ∀ arg ∈ args, Scope.Agree arg s t)
    (h : ∀ arg ∈ args, Outcome.Rel Expr.Agree (eval arg) (eval' arg)) (name : String)
    (primitive : Primitive) :
    Outcome.Rel Expr.Agree (call eval s name primitive args)
      (call eval' t name primitive args) := by
  cases primitive with
  | add =>
    refine (rel_total h name 0).bind fun x x' hx => ?_
    rw [hx]
    exact rel_finite name x'
  | subtract =>
    by_cases hlength : args.length = 2
    · obtain ⟨first, second, rfl⟩ := List.length_eq_two.mp hlength
      refine (rel_numberOf (h first (by simp)) name).bind fun x x' hx => ?_
      refine (rel_numberOf (h second (by simp)) name).bind fun y y' hy => ?_
      rw [hx, hy]
      exact rel_finite name (x' - y')
    · rw [call_subtract_of_length_ne hlength, call_subtract_of_length_ne hlength]
      exact Outcome.rel_fail _
  | abstract =>
    by_cases hlength : args.length = 2
    · obtain ⟨given, body, rfl⟩ := List.length_eq_two.mp hlength
      by_cases hgiven : ∃ parameters, given = .list parameters
      · obtain ⟨parameters, rfl⟩ := hgiven
        rw [call, call]
        obtain ⟨names, rfl⟩ | ⟨names, given, rest, rfl, hne⟩ := parameters_cases parameters
        · rw [parameterNames_map_symbol]
          exact .ok (.lambda hs ht (hargs body (by simp)) (hagree body (by simp)))
        · rw [parameterNames_of_ne hne]
          exact Outcome.rel_fail _
      · rw [call_abstract_of_ne (not_exists.mp hgiven), call_abstract_of_ne (not_exists.mp hgiven)]
        exact Outcome.rel_fail _
    · rw [call_abstract_of_length_ne hlength, call_abstract_of_length_ne hlength]
      exact Outcome.rel_fail _

end

end Primitive

/-- A call keeps agreement if evaluation does. -/
theorem rel_callProcedure {eval : Expr → Scope → Outcome Expr} {args : List Expr} {s t : Scope}
    {procedure procedure' : Expr} (hs : s ≠ []) (ht : t ≠ []) (hargs : ∀ arg ∈ args, arg.Scoped)
    (hagree : ∀ arg ∈ args, Scope.Agree arg s t)
    (heval : ∀ e s t, e.Scoped → Scope.Agree e s t → Outcome.Rel Expr.Agree (eval e s) (eval e t))
    (hprocedure : procedure.Agree procedure') (name : String) :
    Outcome.Rel Expr.Agree (callProcedure eval name args s procedure)
      (callProcedure eval name args t procedure') := by
  have hrow : ∀ arg ∈ args, Outcome.Rel Expr.Agree (eval arg s) (eval arg t) :=
    fun arg harg => heval arg s t (hargs arg harg) (hagree arg harg)
  cases procedure with
  | lambda parameters body captured =>
    obtain ⟨captured', rfl, hne, hne', hbody, hscopes⟩ := hprocedure.of_lambda
    rw [callProcedure, callProcedure]
    split
    · refine (Outcome.rel_mapM hrow).bind fun values values' hvalues => ?_
      -- The scopes of the call are out of sight from here on.
      rw [Scope.home_of_ne_nil hne, Scope.home_of_ne_nil hne']
      exact heval body _ _ hbody (hscopes.extend_zip parameters hvalues)
    · exact Outcome.rel_fail _
  | builtin known primitive =>
    cases hprocedure with
    | same => exact Primitive.rel_call hs ht hargs hagree hrow known primitive
  | number | symbol | list =>
    cases hprocedure with
    | same => exact Outcome.rel_fail _

/-- **Evaluation keeps agreement**: in scopes that agree for it, an expression comes to values that
agree, to faults that agree, or to the limit in both. -/
theorem rel_evaluate {e : Expr} {s t : Scope} (he : e.Scoped) (h : Scope.Agree e s t)
    (limit : Nat) : Outcome.Rel Expr.Agree (evaluate limit e s) (evaluate limit e t) := by
  induction limit generalizing e s t with
  | zero => exact .tooDeep
  | succ limit ih =>
    cases e with
    | number | lambda | builtin => exact .ok (.same he)
    | symbol name =>
      rw [evaluate_symbol, evaluate_symbol, Scope.lookup, Scope.lookup]
      match s.find? name, t.find? name, h name .symbol with
      | none, none, .none => exact Outcome.rel_fail _
      | some _, some _, .some hvalue => exact .ok hvalue
    | list es =>
      cases es with
      | nil => exact .ok (.same he)
      | cons head args =>
        by_cases hhead : ∃ name, head = .symbol name
        · obtain ⟨name, rfl⟩ := hhead
          have hargs : ∀ arg ∈ args, arg.Scoped := by
            cases he with
            | list hes => exact (List.forall_mem_cons.mp hes).2
          have hagree : ∀ arg ∈ args, Scope.Agree arg s t :=
            fun arg harg => h.of_mem (List.mem_cons_of_mem _ harg)
          rw [evaluate_call, evaluate_call, Scope.lookup, Scope.lookup]
          match hs : s.find? name, ht : t.find? name, h name (.list List.mem_cons_self .symbol) with
          | none, none, .none => exact Outcome.rel_fail _
          | some procedure, some procedure', .some hprocedure =>
            exact rel_callProcedure (Scope.ne_nil_of_find? hs) (Scope.ne_nil_of_find? ht) hargs
              hagree (fun _ _ _ => ih) hprocedure name
        · rw [evaluate_of_head_ne (not_exists.mp hhead), evaluate_of_head_ne (not_exists.mp hhead)]
          exact Outcome.rel_fail _

/-! ## Lexical scoping -/

/-- **Two values are alike** if they are the same, or a `lambda` each with the same parameters and
body and with some scope around it. -/
inductive Expr.Alike : Expr → Expr → Prop
  | same {value : Expr} : Alike value value
  | lambda {parameters : List String} {body : Expr} {captured captured' : Scope} : captured ≠ [] →
      captured' ≠ [] → Alike (.lambda parameters body captured) (.lambda parameters body captured')

/-- **Two values are written alike** if each of the three forms is the same text for both. -/
structure Expr.WrittenAlike (value value' : Expr) : Prop where
  source : value.source = value'.source
  label : value.label = value'.label
  outline (depth : Int) : value.outline depth = value'.outline depth

/-- What a `lambda` captured shows in no form. -/
theorem Expr.Alike.writtenAlike {value value' : Expr} (h : Alike value value') :
    WrittenAlike value value' := by
  cases h <;> exact ⟨rfl, rfl, fun _ => rfl⟩

/-- **Two outcomes are alike** if both are values that are alike and written alike, or faults of the
same kind and message, or the limit. -/
inductive Outcome.Alike : Outcome Expr → Outcome Expr → Prop
  | ok {value value' : Expr} : value.Alike value' → value.WrittenAlike value' →
      Alike (.ok value) (.ok value')
  | fault {fault fault' : Fault} : fault.kind = fault'.kind → fault.message = fault'.message →
      Alike (.error (.fault fault)) (.error (.fault fault'))
  | tooDeep : Alike (.error .tooDeep) (.error .tooDeep)

theorem Expr.Agree.alike {value value' : Expr} (h : value.Agree value') : value.Alike value' := by
  cases h with
  | same => exact .same
  | lambda hne hne' => exact .lambda hne hne'

theorem Outcome.Rel.alike {r r' : Outcome Expr} (h : Rel Expr.Agree r r') : r.Alike r' := by
  cases h with
  | ok hvalue => exact .ok hvalue.alike hvalue.alike.writtenAlike
  | fault hfault => exact .fault hfault.kind_eq hfault.message_eq
  | tooDeep => exact .tooDeep

@[simp] theorem Expr.mentions_symbol_iff {name other : String} :
    (symbol other).Mentions name ↔ other = name := by
  constructor
  · rintro ⟨⟩
    rfl
  · rintro rfl
    exact .symbol

@[simp] theorem Expr.mentions_list_iff {name : String} {es : List Expr} :
    (list es).Mentions name ↔ ∃ e ∈ es, e.Mentions name := by
  constructor
  · rintro (_ | ⟨he, h⟩)
    exact ⟨_, he, h⟩
  · rintro ⟨e, he, h⟩
    exact .list he h

/-- **Scoping is lexical.**  In two scopes that give the same values to the names it mentions, an
expression that was read comes to outcomes that are alike.  So it does when a frame binds other
names in front of its scope, those that the bodies of the procedures it calls mention included, and
when the frames of its scope are made one. -/
theorem alike_evaluate_ofSource {source : String} {e : Expr}
    (hread : Expr.ofSource source = .ok e) (limit : Nat) :
    (∀ s t : Scope, s.Scoped → (∀ name, e.Mentions name → s.find? name = t.find? name) →
        (evaluate limit e s).Alike (evaluate limit e t)) ∧
      (∀ (scope : Scope) (bindings : List (String × Expr)), scope.Scoped →
        (∀ b ∈ bindings, ¬ e.Mentions b.1) →
          (evaluate limit e scope).Alike (evaluate limit e (scope.extend bindings))) ∧
      ∀ scope : Scope, scope.Scoped →
        (evaluate limit e scope).Alike (evaluate limit e [scope.flatten]) := by
  have he := (Expr.readable_of_ofSource hread).scoped
  have halike : ∀ s t : Scope, s.Scoped →
      (∀ name, e.Mentions name → s.find? name = t.find? name) →
        (evaluate limit e s).Alike (evaluate limit e t) :=
    fun s t hs h => (rel_evaluate he (.of_find?_eq hs h) limit).alike
  refine ⟨halike, fun scope bindings hscope hbindings => ?_, fun scope hscope => ?_⟩
  · refine halike _ _ hscope fun name hname => (Scope.find?_extend_of_ne ?_ scope).symm
    rintro b hb rfl
    exact hbindings b hb hname
  · exact halike _ _ hscope fun name _ => (Scope.find?_flatten scope name).symm

theorem Scope.scoped_standard : Scope.standard.Scoped := by
  intro frame hframe b hb
  obtain rfl := List.mem_singleton.mp hframe
  obtain ⟨primitive, -, rfl⟩ := List.mem_map.mp (List.mem_reverse.mp hb)
  exact .builtin

theorem Scope.Scoped.extend {scope : Scope} (h : scope.Scoped) {bindings : List (String × Expr)}
    (hbindings : ∀ b ∈ bindings, b.2.Scoped) : (scope.extend bindings).Scoped :=
  List.forall_mem_cons.mpr ⟨fun b hb => hbindings b (List.mem_reverse.mp hb), h⟩

/-- The text `(f)`, where the body of `f` mentions a name that the calling scope binds anew. -/
theorem alike_evaluate_ofSource_free :
    ∃ scope : Scope, scope.Scoped ∧
      scope.find? "f" =
        some (.lambda [] (.symbol "y") (Scope.standard.extend [("y", .number 2)])) ∧
      Expr.ofSource "(f)" = .ok (.list [.symbol "f"]) ∧
      evaluate 2 (.list [.symbol "f"]) scope = .ok (.number 2) ∧
      (evaluate 2 (.list [.symbol "f"]) scope).Alike
        (evaluate 2 (.list [.symbol "f"]) (scope.extend [("y", .number 1)])) := by
  have hread : Expr.ofSource "(f)" = .ok (.list [.symbol "f"]) := by cbv
  have hinner : (Scope.standard.extend [("y", .number 2)]).Scoped :=
    Scope.scoped_standard.extend (List.forall_mem_singleton.mpr .number)
  have hlambda : (Expr.lambda [] (.symbol "y") (Scope.standard.extend [("y", .number 2)])).Scoped :=
    .lambda (List.cons_ne_nil _ _) .symbol hinner
  have hscope : (Scope.standard.extend
      [("f", .lambda [] (.symbol "y") (Scope.standard.extend [("y", .number 2)]))]).Scoped :=
    Scope.scoped_standard.extend (List.forall_mem_singleton.mpr hlambda)
  exact ⟨_, hscope, rfl, hread, rfl,
    (alike_evaluate_ofSource hread 2).2.1 _ _ hscope (by simp)⟩

end Lisplet
