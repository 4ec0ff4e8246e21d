import Lisplet.Proofs.Eval.Direct
import Lisplet.Proofs.Session.Lines

/-!
# Proofs/Session/Direct — what programs are run as

Files and typed lines are evaluated in the scope that programs start in, which binds no `lambda`.
So direct evaluation is all that ever happens to them: it needs no more evaluations inside one
another than the expression has levels, and applies nothing but the primitives
(`evaluation_is_direct`).
-/

namespace Lisplet

/-- A line that is read comes to what its expression evaluates to. -/
theorem Session.add_of_ofSource {line : String} {e : Expr} (h : Expr.ofSource line = .ok e)
    (s : Session) (number : Int) :
    (s.add line number).1 = evaluate depthLimit e s.scope := by
  rw [fst_add, h, Outcome.ofFaulty, Outcome.ok_bind]

theorem Program.scope_shell_after (style : Style) (tree : Bool) (lines : List String) :
    ((shell style tree).after lines).session.scope = .standard :=
  Shell.scope_after _ lines

/-- A whole talk is evaluated in the scope that programs start in. -/
theorem Program.scope_converse (style : Style) (tree : Bool) (lines : List String) :
    (converse (shell style tree) lines).1.session.scope = .standard := by
  obtain ⟨answered, -, hanswered⟩ := exists_converse_eq_after (shell style tree) lines
  rw [hanswered, scope_shell_after]

/-- **Programs are evaluated directly.**  Where no `lambda` is bound, an expression comes to what
its direct evaluation says, a value or a fault of evaluation, as soon as its levels fit in the
limit, and no `lambda` is applied at any limit.  So does every line of a session, apart from the
limit; and the sessions of files and shells never leave the scope that programs start in, where no
`lambda` is bound. -/
theorem evaluation_is_direct :
    (∀ scope : Scope, scope.LambdaFree → ∀ e : Expr,
      (∀ limit, e.nesting ≤ limit → evaluate limit e scope = .ofFaulty (e.direct scope)) ∧
      (∀ fault, e.direct scope = .error fault → fault.OfEvaluation) ∧
      ∀ (apply : Application) (limit : Nat),
        evaluateBy apply limit e scope = evaluate limit e scope) ∧
    (∀ (s : Session) (line : String) (number : Int) (e : Expr),
      s.scope.LambdaFree → Expr.ofSource line = .ok e →
        (e.nesting ≤ depthLimit → (s.add line number).1 = .ofFaulty (e.direct s.scope)) ∧
        ((s.add line number).1 = .error .tooDeep ∨
          (s.add line number).1 = .ofFaulty (e.direct s.scope))) ∧
    Scope.standard.LambdaFree ∧
    (∀ (reporter : Reporter) (path : String) (bytes : Option (List UInt8)) (asTyped tree : Bool)
      (s : Session), Session.ofFile reporter path bytes asTyped tree = .ok s →
        ∀ entries, (s.runEntries entries).session.scope = .standard) ∧
    ∀ (style : Style) (tree : Bool) (lines : List String),
      ((Program.shell style tree).after lines).session.scope = .standard ∧
        (Program.converse (Program.shell style tree) lines).1.session.scope = .standard := by
  refine ⟨fun scope hscope e => ⟨fun limit => evaluate_eq_direct hscope, fun fault =>
    ofEvaluation_of_direct hscope, fun apply limit => evaluateBy_of_lambdaFree hscope apply limit e⟩,
    fun s line number e hscope hread => ?_, Scope.lambdaFree_standard,
    fun reporter path bytes asTyped tree s hs entries => ?_,
    fun style tree lines => ⟨Program.scope_shell_after .., Program.scope_converse ..⟩⟩
  · rw [s.add_of_ofSource hread]
    exact ⟨evaluate_eq_direct hscope, tooDeep_or_eq_direct hscope depthLimit e⟩
  · rw [s.scope_runEntries, (Session.of_ofFile hs).1]

/-- The line `(- (lambda () x) x)`, typed or alone in a file: it has three levels, and subtracts
from what is no number. -/
theorem evaluation_is_direct_subtract :
    let e : Expr := .list [.symbol "-", .list [.symbol "lambda", .list [], .symbol "x"], .symbol "x"]
    let fault : Fault := .notNumber "-" (.lambda [] (.symbol "x") Scope.standard)
    let line := "(- (lambda () x) x)"
    let bytes := line.toList.map fun c => c.toNat.toUInt8
    Scope.standard.LambdaFree ∧ e.nesting = 3 ∧ e.direct .standard = .error fault ∧
      evaluate 3 e .standard = .ofFaulty (e.direct .standard) ∧ fault.OfEvaluation ∧
      Expr.ofSource line = .ok e ∧
      ((Session.typed (Program.reporter .plain) .standard false).add line 1).1 =
        .ofFaulty (e.direct .standard) ∧
      ∃ s, Session.ofFile (Program.reporter .plain) "p" (some bytes) false false = .ok s ∧
        s.waiting = [⟨line, 1⟩] ∧ (s.runEntries s.waiting).session.scope = .standard := by
  intro e fault line bytes
  obtain ⟨hdirect, hadd, hfree, hfile, -⟩ := evaluation_is_direct
  have hread : Expr.ofSource "(- (lambda () x) x)" = .ok (.list [.symbol "-",
      .list [.symbol "lambda", .list [], .symbol "x"], .symbol "x"]) := by cbv
  have hscope := hdirect .standard hfree e
  have hwaiting : (Session.ofFile (Program.reporter .plain) "p" (some bytes) false
      false).toOption.map (·.waiting) = some [⟨line, 1⟩] := by decide +kernel
  obtain ⟨s, hs, hentries⟩ := Session.exists_of_map_waiting hwaiting
  exact ⟨hfree, rfl, rfl, hscope.1 3 (Nat.le_refl 3), hscope.2.1 fault rfl, hread,
    (hadd _ line 1 e hfree hread).1 (by decide), s, hs, hentries, hfile _ _ _ _ _ s hs _⟩

end Lisplet
