import Lisplet.Scope

/-!
# Proofs/Scope — what scopes find

A scope finds what one of its frames binds, the innermost that binds the name.  An extended scope
finds the last of the new bindings of the name, and else what it found before
(`Scope.find?_extend_eq_some_iff`).  Frames may be put together with no change.
-/

namespace Lisplet

namespace Frame

theorem mem_of_lookup {frame : Frame} {name : String} {value : Expr}
    (h : frame.lookup name = some value) : (name, value) ∈ frame := by
  obtain ⟨before, after, rfl, -⟩ := List.lookup_eq_some_iff.mp h
  exact List.mem_append_right _ List.mem_cons_self

/-- Of the bindings of a name the last one counts. -/
theorem lookup_ofBindings_eq_some_iff {bindings : List (String × Expr)} {name : String}
    {value : Expr} :
    (ofBindings bindings).lookup name = some value ↔
      ∃ before after, bindings = before ++ (name, value) :: after ∧ ∀ b ∈ after, b.1 ≠ name := by
  rw [ofBindings, List.lookup_eq_some_iff]
  constructor
  · rintro ⟨after, before, hbindings, hafter⟩
    refine ⟨before.reverse, after.reverse, ?_, fun b hb => ?_⟩
    · rw [← List.reverse_reverse bindings, hbindings]
      simp
    · exact Ne.symm (by simpa using hafter b (List.mem_reverse.mp hb))
  · rintro ⟨before, after, rfl, hafter⟩
    refine ⟨after.reverse, before.reverse, by simp, fun b hb => ?_⟩
    simpa using (hafter b (List.mem_reverse.mp hb)).symm

/-- A name that no binding is of is not bound. -/
theorem lookup_ofBindings_eq_none_iff {bindings : List (String × Expr)} {name : String} :
    (ofBindings bindings).lookup name = none ↔ ∀ b ∈ bindings, b.1 ≠ name := by
  simp only [ofBindings, List.lookup_eq_none_iff, List.mem_reverse, bne_iff_ne, ne_comm]

end Frame

namespace Scope

theorem find?_cons (name : String) (frame : Frame) (outer : Scope) :
    find? name (frame :: outer) = (frame.lookup name).or (find? name outer) := by
  rw [find?]
  cases frame.lookup name <;> rfl

theorem ne_nil_of_find? {scope : Scope} {name : String} {value : Expr}
    (h : scope.find? name = some value) : scope ≠ [] := by
  rintro rfl
  simp [find?] at h

/-- What a scope finds is bound in one of its frames. -/
theorem exists_mem_of_find? {scope : Scope} {name : String} {value : Expr}
    (h : scope.find? name = some value) : ∃ frame ∈ scope, (name, value) ∈ frame := by
  induction scope with
  | nil => simp [find?] at h
  | cons frame outer ih =>
    rw [find?_cons, Option.or_eq_some_iff] at h
    obtain hframe | ⟨-, houter⟩ := h
    · exact ⟨frame, List.mem_cons_self, Frame.mem_of_lookup hframe⟩
    · obtain ⟨frame', hmem, hb⟩ := ih houter
      exact ⟨frame', List.mem_cons_of_mem _ hmem, hb⟩

/-- The new frame of an extended scope has the last binding in front. -/
theorem extend_eq (scope : Scope) (bindings : List (String × Expr)) :
    scope.extend bindings = bindings.reverse :: scope := rfl

/-- **An extended scope finds the last binding of a name**, or what is found around it if no
binding is of that name. -/
theorem find?_extend_eq_some_iff {scope : Scope} {bindings : List (String × Expr)} {name : String}
    {value : Expr} :
    (scope.extend bindings).find? name = some value ↔
      (∃ before after, bindings = before ++ (name, value) :: after ∧ ∀ b ∈ after, b.1 ≠ name) ∨
        (∀ b ∈ bindings, b.1 ≠ name) ∧ scope.find? name = some value := by
  rw [extend, find?_cons, Option.or_eq_some_iff, Frame.lookup_ofBindings_eq_some_iff,
    Frame.lookup_ofBindings_eq_none_iff]

/-- What an extended scope finds is bound there or found around it. -/
theorem mem_or_of_find?_extend {scope : Scope} {bindings : List (String × Expr)} {name : String}
    {value : Expr} (h : (scope.extend bindings).find? name = some value) :
    (name, value) ∈ bindings ∨ scope.find? name = some value := by
  obtain ⟨before, after, rfl, -⟩ | ⟨-, houter⟩ := find?_extend_eq_some_iff.mp h
  · exact .inl (List.mem_append_right before List.mem_cons_self)
  · exact .inr houter

/-- Bindings of other names do not change what a name means. -/
theorem find?_extend_of_ne {bindings : List (String × Expr)} {name : String}
    (h : ∀ b ∈ bindings, b.1 ≠ name) (scope : Scope) :
    (scope.extend bindings).find? name = scope.find? name := by
  rw [extend, find?_cons, Frame.lookup_ofBindings_eq_none_iff.mpr h, Option.none_or]

/-- The frames of a scope may as well be one frame. -/
theorem find?_flatten (scope : Scope) (name : String) :
    find? name [scope.flatten] = scope.find? name := by
  induction scope with
  | nil => rfl
  | cons frame outer ih =>
    rw [find?_cons name frame outer, ← ih, find?_cons, find?_cons, List.flatten_cons,
      List.lookup_append, Option.or_assoc]

end Scope

end Lisplet
