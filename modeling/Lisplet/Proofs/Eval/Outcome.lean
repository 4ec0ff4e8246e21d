import Lisplet.Eval
import Mathlib.Data.List.Forall2

/-!
# Proofs/Eval/Outcome — outcomes one after another

An outcome that is computed in two parts ends in the first of them or after it.  The lemmas here
take such outcomes apart, and rows of them, which `List.mapM` computes from left to right.
-/

namespace Lisplet

namespace Outcome

variable {α β : Type}

@[simp] theorem ok_bind (a : α) (f : α → Outcome β) : ((.ok a : Outcome α) >>= f) = f a := rfl

@[simp] theorem error_bind (h : Halt) (f : α → Outcome β) :
    ((.error h : Outcome α) >>= f) = .error h := rfl

@[simp] theorem fail_bind (fault : Fault) (f : α → Outcome β) :
    ((fail fault : Outcome α) >>= f) = fail fault := rfl

@[simp] theorem pure_eq (a : α) : (pure a : Outcome α) = .ok a := rfl

/-- What comes after a computation comes after its value. -/
theorem bind_eq_ok {r : Outcome α} {f : α → Outcome β} {b : β} (h : r >>= f = .ok b) :
    ∃ a, r = .ok a ∧ f a = .ok b := by
  cases r with
  | ok a => exact ⟨a, rfl, h⟩
  | error => simp at h

theorem ofFaulty_injective {result result' : Except Fault α}
    (h : ofFaulty result = ofFaulty result') : result = result' := by
  cases result <;> cases result' <;> cases h <;> rfl

theorem ok_eq_ofFaulty {a : α} {result : Except Fault α}
    (h : (.ok a : Outcome α) = ofFaulty result) : result = .ok a := by
  cases result <;> cases h
  rfl

theorem fail_eq_ofFaulty {fault : Fault} {result : Except Fault α}
    (h : (fail fault : Outcome α) = ofFaulty result) : result = .error fault := by
  cases result <;> cases h
  rfl

/-- Two computations that cannot nest are computed one after the other. -/
theorem ofFaulty_bind (r : Except Fault α) (f : α → Except Fault β) :
    ofFaulty (r >>= f) = ofFaulty r >>= fun a => ofFaulty (f a) := by
  cases r <;> rfl

/-- A computation that does not nest too deep ends in its first part or after it. -/
theorem bind_eq_ofFaulty {r : Outcome α} {f : α → Outcome β} {result : Except Fault β}
    (h : r >>= f = ofFaulty result) :
    (∃ fault, r = ofFaulty (.error fault) ∧ result = .error fault) ∨
      ∃ a, r = ofFaulty (.ok a) ∧ f a = ofFaulty result := by
  match r with
  | .ok a => exact .inr ⟨a, rfl, h⟩
  | .error (.fault fault) => exact .inl ⟨fault, rfl, fail_eq_ofFaulty h⟩
  | .error .tooDeep => cases result <;> cases h

theorem map_eq_ofFaulty {r : Outcome α} {k : α → β} {result : Except Fault β}
    (h : (r >>= fun a => .ok (k a)) = ofFaulty result) :
    ∃ result', r = ofFaulty result' ∧ result = result'.map k := by
  obtain ⟨fault, hr, rfl⟩ | ⟨a, hr, h⟩ := bind_eq_ofFaulty h
  · exact ⟨.error fault, hr, rfl⟩
  · exact ⟨.ok a, hr, ok_eq_ofFaulty h⟩

theorem bind_congr {r : Outcome α} {f g : α → Outcome β} (h : ∀ a, r = .ok a → f a = g a) :
    r >>= f = r >>= g := by
  cases r with
  | ok a => exact h a rfl
  | error => rfl

/-- **A row has values exactly if its elements do.** -/
theorem mapM_eq_ok_iff {f : α → Outcome β} {xs : List α} {ys : List β} :
    xs.mapM f = .ok ys ↔ List.Forall₂ (fun x y => f x = .ok y) xs ys := by
  constructor
  · intro h
    induction xs generalizing ys with
    | nil =>
      obtain rfl : [] = ys := Except.ok.inj h
      exact .nil
    | cons x xs ih =>
      rw [List.mapM_cons] at h
      obtain ⟨y, hy, h⟩ := bind_eq_ok h
      obtain ⟨ys', hys, h⟩ := bind_eq_ok h
      obtain rfl := Except.ok.inj h
      exact .cons hy (ih hys)
  · intro h
    induction h with
    | nil => rfl
    | cons hy _ ih => rw [List.mapM_cons, hy, ok_bind, ih, ok_bind, pure_eq]

/-- A row that is computed in full has a value for each of its elements. -/
theorem length_of_mapM {f : α → Outcome β} {xs : List α} {ys : List β}
    (h : xs.mapM f = .ok ys) : ys.length = xs.length := (mapM_eq_ok_iff.mp h).length_eq.symm

/-- What is computed in two parts fails in the first of them or after it. -/
theorem bind_eq_error_iff {r : Outcome α} {f : α → Outcome β} {halt : Halt} :
    r >>= f = .error halt ↔ r = .error halt ∨ ∃ a, r = .ok a ∧ f a = .error halt := by
  cases r with
  | ok a => simp
  | error halt' => simp

/-- **A row fails as its first element that fails.** -/
theorem mapM_eq_error_iff {f : α → Outcome β} {xs : List α} {halt : Halt} :
    xs.mapM f = .error halt ↔ ∃ before x after, xs = before ++ x :: after ∧
      (∀ b ∈ before, ∃ y, f b = .ok y) ∧ f x = .error halt := by
  constructor
  · intro h
    induction xs with
    | nil => cases h
    | cons x xs ih =>
      rw [List.mapM_cons, bind_eq_error_iff] at h
      obtain hx | ⟨y, hy, h⟩ := h
      · exact ⟨[], x, xs, rfl, by simp, hx⟩
      obtain hxs | ⟨ys, -, hys⟩ := bind_eq_error_iff.mp h
      · obtain ⟨before, x', after, rfl, hbefore, hx'⟩ := ih hxs
        exact ⟨x :: before, x', after, rfl, List.forall_mem_cons.mpr ⟨⟨y, hy⟩, hbefore⟩, hx'⟩
      · cases hys
  · rintro ⟨before, x, after, rfl, hbefore, hx⟩
    induction before with
    | nil => rw [List.nil_append, List.mapM_cons, hx, error_bind]
    | cons b before ih =>
      obtain ⟨⟨y, hy⟩, hbefore⟩ := List.forall_mem_cons.mp hbefore
      rw [List.cons_append, List.mapM_cons, hy, ok_bind, ih hbefore, error_bind]

theorem mapM_congr {f g : α → Outcome β} {xs : List α} (h : ∀ x ∈ xs, f x = g x) :
    xs.mapM f = xs.mapM g := by
  induction xs with
  | nil => rfl
  | cons x xs ih =>
    rw [List.mapM_cons, List.mapM_cons, h x List.mem_cons_self,
      ih fun y hy => h y (List.mem_cons_of_mem x hy)]

end Outcome

end Lisplet
