import Lisplet.Proofs.Report
import Lisplet.Proofs.Session.Lines

/-!
# Proofs/Session/Stack — a session as a stack of evaluations

A typed session is used through three operations, in any order: a line is evaluated and its result
kept, the newest result is taken, or both at once under the guard of the reporter.  Its results are
those of a stack on which every line is evaluated on its own, and its reporter is never at work on
more than the one line that failed last (`Session.Shows`, kept by `Session.Shows.performAll`).  So
an operation comes to the same whatever was done before, and one that fails leaves the results as
they were (`session_refines_stack`).
-/

namespace Lisplet

namespace Session

variable {s : Session} {line : String} {number : Int}

/-! ## Operations and the stack -/

/-- What is done with a session. -/
inductive Operation where
  /-- A line is evaluated and its result kept. -/
  | add (line : String) (number : Int)
  /-- The newest result is taken. -/
  | pop
  /-- A line is evaluated and its result taken, with the reporter settling what goes wrong. -/
  | attempt (line : String) (number : Int)

/-- The session after an operation; where there is no result to take, it stays as it is. -/
def perform (s : Session) : Operation → Session
  | .add line number => (s.add line number).2
  | .pop => (s.pop.map (·.2)).getD s
  | .attempt line number => (s.attempt line number).session

/-- The session after operations one after another. -/
def performAll (s : Session) (ops : List Operation) : Session := ops.foldl perform s

/-- **A stack of independent evaluations**: the results that are not taken yet, the newest first,
and the line that failed last, if no line was evaluated or reported since. -/
structure Stack where
  results : List Evaluated := []
  failed : Option SourceLine := none

/-- **An operation on the stack**, where every line is evaluated in the scope on its own.  A line
with a value puts its result on the stack, and one without leaves the results as they are; under
the guard of the reporter both do. -/
def Operation.onStack (scope : Scope) (t : Stack) : Operation → Stack
  | .add line number =>
    match scope.run line with
    | .ok (e, value) => ⟨⟨e, value⟩ :: t.results, none⟩
    | .error _ => ⟨t.results, some ⟨line, number⟩⟩
  | .pop => ⟨t.results.tail, t.failed⟩
  | .attempt .. => ⟨t.results, none⟩

theorem Operation.onStack_add_of_ok {scope : Scope} {e value : Expr}
    (h : scope.run line = .ok (e, value)) (number : Int) (t : Stack) :
    (add line number).onStack scope t = ⟨⟨e, value⟩ :: t.results, none⟩ := by
  simp only [onStack, h]

theorem Operation.onStack_add_of_error {scope : Scope} {halt : Halt}
    (h : scope.run line = .error halt) (number : Int) (t : Stack) :
    (add line number).onStack scope t = ⟨t.results, some ⟨line, number⟩⟩ := by
  simp only [onStack, h]

/-- **A session shows a stack**: it has its results, and its reporter is at work on the line that
failed and on no other.  Its file, its scope, and how it shows and reports are those it started
with. -/
structure Shows (start s : Session) (t : Stack) : Prop where
  path : s.path = start.path
  scope : s.scope = start.scope
  showTree : s.showTree = start.showTree
  style : s.reporter.style = start.reporter.style
  fatal : s.reporter.fatal = false
  results : s.results = t.results
  works : s.reporter.WorksOn start.path t.failed

/-- **A session that is ready for typed lines**: faults do not end it, and no line is at work. -/
structure Ready (s : Session) : Prop where
  fatal : s.reporter.fatal = false
  works : s.reporter.WorksOn s.path none

theorem ready_typed {reporter : Reporter} (h : reporter.Idle) (scope : Scope) (showTree : Bool) :
    (typed reporter scope showTree).Ready :=
  ⟨rfl, h.addFile typedPath⟩

/-- A file that is treated as typed is ready as well, and nothing of it is evaluated yet. -/
theorem ready_ofFile {reporter : Reporter} (hidle : reporter.Idle) {path : String}
    {bytes : Option (List UInt8)} {showTree : Bool}
    (h : ofFile reporter path bytes true showTree = .ok s) : s.Ready ∧ s.results = [] := by
  have hworks := hidle.addFile path
  simp only [ofFile, if_true] at h
  split at h
  · obtain rfl := Except.ok.inj h
    exact ⟨⟨rfl, hworks⟩, rfl⟩
  · split at h
    · simp at h
    · obtain rfl := Except.ok.inj h
      exact ⟨⟨rfl, hworks⟩, rfl⟩

theorem Ready.shows (h : s.Ready) : s.Shows s ⟨s.results, none⟩ :=
  ⟨rfl, rfl, rfl, rfl, h.fatal, rfl, h.works⟩

namespace Shows

variable {start : Session} {t : Stack}

/-- A session goes on showing a stack when its results and the line at work change. -/
theorem update (h : start.Shows s t) {r : Reporter} (hstyle : r.style = s.reporter.style)
    (hfatal : r.fatal = s.reporter.fatal) {failed : Option SourceLine}
    (hworks : r.WorksOn start.path failed) (results : List Evaluated) :
    start.Shows { s with results := results, reporter := r } ⟨results, failed⟩ :=
  ⟨h.path, h.scope, h.showTree, hstyle.trans h.style, hfatal.trans h.fatal, rfl, hworks⟩

/-- The line at work is set. -/
theorem place (h : start.Shows s t) (failed : Option SourceLine) (results : List Evaluated) :
    start.Shows { s with results := results, reporter := s.reporter.place s.path failed }
      ⟨results, failed⟩ :=
  h.update (Reporter.style_place ..) (Reporter.fatal_place ..) (h.path ▸ h.works.place failed)
    results

theorem add (h : start.Shows s t) (line : String) (number : Int) :
    start.Shows (s.add line number).2 ((Operation.add line number).onStack start.scope t) := by
  rw [← h.scope]
  cases hrun : s.scope.run line with
  | error halt =>
    rw [add_of_run_error hrun, Operation.onStack_add_of_error hrun, ← h.results]
    exact h.place _ _
  | ok result =>
    rw [add_of_run_ok hrun, Operation.onStack_add_of_ok hrun, ← h.results]
    exact (h.place _ s.results).place none _

theorem pop (h : start.Shows s t) :
    start.Shows (s.perform .pop) (Operation.onStack start.scope t .pop) := by
  rw [perform, Session.pop, Operation.onStack, ← h.results]
  cases hresults : s.results with
  | nil => exact { h with results := hresults }
  | cons newest older => exact { h with results := rfl }

/-- Whatever a guarded line comes to, no line is at work after it. -/
theorem attempt (h : start.Shows s t) (line : String) (number : Int) :
    start.Shows (s.attempt line number).session ⟨t.results, none⟩ := by
  have hstart := h.place (some ⟨line, number⟩) s.results
  rw [← h.results]
  cases hrun : s.scope.run line with
  | error halt =>
    rw [attempt_of_run_error hrun, settle, Reporter.settle_incident, Reporter.report,
      if_neg (by simp [Reporter.startLine, Reporter.fatal_place, h.fatal])]
    exact hstart.update (r := (s.reporter.startLine s.path line number).forgetLines) rfl rfl
      hstart.works.forgetLines _
  | ok result =>
    rw [attempt_of_run_ok hrun]
    exact hstart.place none _

/-- **One operation**: what the session does is what the stack does. -/
theorem perform (h : start.Shows s t) (op : Operation) :
    start.Shows (s.perform op) (op.onStack start.scope t) := by
  cases op with
  | add line number => exact h.add line number
  | pop => exact h.pop
  | attempt line number => exact h.attempt line number

/-- **Any operations.** -/
theorem performAll (h : start.Shows s t) (ops : List Operation) :
    start.Shows (s.performAll ops) (ops.foldl (Operation.onStack start.scope) t) := by
  induction ops generalizing s t with
  | nil => exact h
  | cons op ops ih => exact ih (h.perform op)

theorem working (h : start.Shows s t) :
    s.reporter.working = t.failed.toList.map (start.path, ·) := h.works.working

theorem shown (h : start.Shows s t) (r : Evaluated) : s.shown r = start.shown r := by
  rw [Session.shown, h.showTree, Session.shown]

end Shows

/-! ## What an operation answers -/

/-- **The report of a line that is evaluated on its own** and ends without a value. -/
def reportOf (s : Session) (line : String) (number : Int) (halt : Halt) : String :=
  ({ s.reporter with trace := [(s.path, some ⟨line, number⟩)] } : Reporter).reportText
    halt.diagnostic

namespace Shows

variable {start : Session} {t : Stack} {e value : Expr} {halt : Halt}

/-- A guarded line with a value shows it, and nothing is reported. -/
theorem attempt_of_ok (h : start.Shows s t) (hrun : start.scope.run line = .ok (e, value))
    (number : Int) : (s.attempt line number).output = "" ∧
      (s.attempt line number).printed = some (start.shown ⟨e, value⟩) ∧
      (s.attempt line number).fate = .resumed := by
  rw [attempt_of_run_ok (h.scope ▸ hrun), h.shown]
  exact ⟨rfl, rfl, rfl⟩

/-- **A guarded line without a value is reported** as if nothing had been done before. -/
theorem attempt_of_error (h : start.Shows s t) (hrun : start.scope.run line = .error halt)
    (number : Int) : (s.attempt line number).output = start.reportOf line number halt ∧
      (s.attempt line number).printed = none ∧ (s.attempt line number).fate = .resumed := by
  have hplace := h.place (some ⟨line, number⟩) s.results
  have hfatal : (s.reporter.startLine s.path line number).fatal = false := hplace.fatal
  rw [attempt_of_run_error (h.scope ▸ hrun), settle, Reporter.settle_incident, Reporter.report,
    if_neg (by simp [hfatal]), reportOf]
  refine ⟨Reporter.reportText_congr ?_ ?_ _, rfl, rfl⟩
  · exact hplace.style
  · exact hplace.working

/-- What goes wrong under the guard does not end the work. -/
theorem fate_attempt (h : start.Shows s t) (line : String) (number : Int) :
    (s.attempt line number).fate = .resumed := by
  cases hrun : start.scope.run line with
  | ok result => exact (h.attempt_of_ok hrun number).2.2
  | error halt => exact (h.attempt_of_error hrun number).2.2

end Shows

end Session

theorem Program.idle_reporter (style : Style) : (reporter style).Idle :=
  ⟨List.nodup_nil, fun _ hentry => absurd hentry List.not_mem_nil⟩

/-! ## A session and its stack -/

/-- **A session refines a stack of independent evaluations, and failures are atomic.**  After any
operations a session has the results of a stack on which each line was evaluated on its own, in the
scope that the session started with, and its reporter knows of no line but the one that failed last.
Evaluating a line comes to the same as ever; it adds a result if there is a value and clears the
line at work, and else leaves the results as they are and the line at work.  Taking a result takes
the newest, and nothing where there is none.  A guarded line leaves the results as they are and no
line at work, and its report is that of a line on its own. -/
theorem session_refines_stack {start : Session} (h : start.Ready)
    (ops : List Session.Operation) :
    let s := start.performAll ops
    let stack := ops.foldl (Session.Operation.onStack start.scope) ⟨start.results, none⟩
    s.results = stack.results ∧
    s.reporter.working = stack.failed.toList.map (start.path, ·) ∧
    (∀ (line : String) (number : Int),
      (s.add line number).1 = (Outcome.ofFaulty (Expr.ofSource line) >>= fun e =>
        evaluate depthLimit e start.scope) ∧
      (∀ e value, start.scope.run line = .ok (e, value) →
        (s.add line number).2.results = ⟨e, value⟩ :: s.results ∧
        (s.add line number).2.reporter.working = []) ∧
      (∀ halt, start.scope.run line = .error halt →
        (s.add line number).2.results = s.results ∧
        (s.add line number).2.reporter.working = [(start.path, ⟨line, number⟩)])) ∧
    (s.results = [] → s.pop = none) ∧
    (∀ newest older, s.results = newest :: older →
      s.pop = some (start.shown newest, { s with results := older })) ∧
    ∀ (line : String) (number : Int),
      (s.attempt line number).session.results = s.results ∧
      (s.attempt line number).session.reporter.working = [] ∧
      (s.attempt line number).fate = .resumed ∧
      (∀ e value, start.scope.run line = .ok (e, value) →
        (s.attempt line number).output = "" ∧
        (s.attempt line number).printed = some (start.shown ⟨e, value⟩)) ∧
      (∀ halt, start.scope.run line = .error halt →
        (s.attempt line number).output = start.reportOf line number halt ∧
        (s.attempt line number).printed = none) := by
  intro s stack
  have hshows : start.Shows s stack := h.shows.performAll ops
  refine ⟨hshows.results, hshows.working, fun line number => ⟨?_, fun e value hrun => ?_,
    fun halt hrun => ?_⟩, fun hnil => ?_, fun newest older hcons => ?_, fun line number => ?_⟩
  · rw [Session.fst_add, hshows.scope]
  · have hadd := hshows.add line number
    rw [Session.Operation.onStack_add_of_ok hrun, ← hshows.results] at hadd
    exact ⟨hadd.results, hadd.working⟩
  · have hadd := hshows.add line number
    rw [Session.Operation.onStack_add_of_error hrun, ← hshows.results] at hadd
    exact ⟨hadd.results, hadd.working⟩
  · rw [Session.pop, hnil]
  · rw [Session.pop, hcons, ← hshows.shown]
  · have hattempt := hshows.attempt line number
    refine ⟨hattempt.results.trans hshows.results.symm, hattempt.working,
      hshows.fate_attempt line number, fun e value hrun => ?_, fun halt hrun => ?_⟩
    · obtain ⟨houtput, hprinted, -⟩ := hshows.attempt_of_ok hrun number
      exact ⟨houtput, hprinted⟩
    · obtain ⟨houtput, hprinted, -⟩ := hshows.attempt_of_error hrun number
      exact ⟨houtput, hprinted⟩

/-- A program that makes the identity. -/
theorem Scope.run_identity : Scope.standard.run "(lambda (x) x)" =
    .ok (.list [.symbol "lambda", .list [.symbol "x"], .symbol "x"],
      .lambda ["x"] (.symbol "x") Scope.standard) := by
  have hread : Expr.ofSource "(lambda (x) x)" =
      .ok (.list [.symbol "lambda", .list [.symbol "x"], .symbol "x"]) := by cbv
  rw [Scope.run, hread]
  rfl

/-- The lines `(lambda (x) x)` and `x`, the second of which has no value: the first result is still
there to take, and the report of a third line is silent about the second. -/
theorem session_refines_stack_failed :
    let start := Session.typed (Program.reporter .plain) .standard false
    let s := start.performAll [.add "(lambda (x) x)" 1, .add "x" 2]
    start.Ready ∧ s.reporter.working = [("<in>", ⟨"x", 2⟩)] ∧
      s.pop.map (·.1) = some "(lambda (x) x)" ∧
      (s.attempt ")" 3).session.results = s.results ∧
      (s.attempt ")" 3).output =
        "  File '<in>', line 3:\n    )\nerror: unexpected list closing\n" := by
  intro start s
  have hready : start.Ready := Session.ready_typed (Program.idle_reporter .plain) _ _
  have hname : Expr.ofSource "x" = .ok (.symbol "x") := by cbv
  have hsecond : Scope.standard.run "x" = .error (.fault (.unbound "x")) := by
    rw [Scope.run, hname]
    rfl
  have hthird : Scope.standard.run ")" = .error (.fault .strayClose) := by cbv
  obtain ⟨hresults, hworking, -, -, hpop, hattempt⟩ :=
    session_refines_stack hready [.add "(lambda (x) x)" 1, .add "x" 2]
  obtain ⟨hkept, -, -, -, hreport⟩ := hattempt ")" 3
  have hstack : [Session.Operation.add "(lambda (x) x)" 1, .add "x" 2].foldl
      (Session.Operation.onStack Scope.standard) ⟨[], none⟩ =
        ⟨[⟨.list [.symbol "lambda", .list [.symbol "x"], .symbol "x"],
          .lambda ["x"] (.symbol "x") Scope.standard⟩], some ⟨"x", 2⟩⟩ := by
    rw [List.foldl_cons, List.foldl_cons, List.foldl_nil,
      Session.Operation.onStack_add_of_ok Scope.run_identity,
      Session.Operation.onStack_add_of_error hsecond]
  refine ⟨hready, ?_, ?_, hkept, ?_⟩
  · exact hworking.trans
      (congrArg (fun t : Session.Stack => t.failed.toList.map (start.path, ·)) hstack)
  · rw [hpop _ _ (hresults.trans (congrArg Session.Stack.results hstack))]
    rfl
  · rw [(hreport _ hthird).1]
    decide +kernel

end Lisplet
