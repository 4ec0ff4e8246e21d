import Lisplet.Program
import Lisplet.Proofs.Eval.Outcome

/-!
# Proofs/Session/Lines — sessions and shells line by line

What a session does with a line is said once for lines with a value and once for those without.
Whatever a session evaluates, it stays in its scope.  A shell takes lines one at a time: what it
hands to its session is the text that a piece of program makes with the held text, once that is
finished (`Shell.handed?`); nothing else reaches the session (`Shell.session_step`), and only
unfinished text is held (`Shell.HoldsUnfinished.after`).
-/

namespace Lisplet

/-! ## One line in a session -/

namespace Session

section

variable {s : Session} {line : String} {number : Int} {e value : Expr} {halt : Halt}

theorem add_of_run_ok (h : s.scope.run line = .ok (e, value)) : s.add line number = (.ok value,
    { s with
      results := ⟨e, value⟩ :: s.results
      reporter := (s.reporter.startLine s.path line number).finishLine s.path }) := by
  simp only [add, h]

theorem add_of_run_error (h : s.scope.run line = .error halt) : s.add line number =
    (.error halt, { s with reporter := s.reporter.startLine s.path line number }) := by
  simp only [add, h]

/-- A result that is kept is taken at once. -/
theorem attempt_of_run_ok (h : s.scope.run line = .ok (e, value)) : s.attempt line number =
    ⟨{ s with reporter := (s.reporter.startLine s.path line number).finishLine s.path }, "",
      some (s.shown ⟨e, value⟩), .resumed⟩ := by
  simp only [attempt, add_of_run_ok h, pop]
  rfl

theorem attempt_of_run_error (h : s.scope.run line = .error halt) : s.attempt line number =
    { s with reporter := s.reporter.startLine s.path line number }.settle halt.incident := by
  simp only [attempt, add_of_run_error h]

/-- An entry with a value is printed first, whatever comes after it. -/
theorem printed_runEntries_of_run_ok {entry : Entry}
    (h : s.scope.run entry.text = .ok (e, value))
    (rest : List Entry) :
    ∃ more, (s.runEntries (entry :: rest)).printed = s.shown ⟨e, value⟩ :: more := by
  have hadd : ({ s with waiting := rest } : Session).add entry.text entry.number = (.ok value, _) :=
    add_of_run_ok h
  simp only [runEntries, hadd, pop]
  exact ⟨_, rfl⟩

/-- **An entry without a value stops the run**: it is at work, and what comes after it still waits. -/
theorem runEntries_cons_of_run_error {entry : Entry}
    (h : s.scope.run entry.text = .error halt) (rest : List Entry) :
    s.runEntries (entry :: rest) = ⟨[], some halt,
      { s with
        waiting := rest
        reporter := s.reporter.startLine s.path entry.text entry.number }⟩ := by
  have hadd : ({ s with waiting := rest } : Session).add entry.text entry.number =
    (.error halt, _) := add_of_run_error h
  simp only [runEntries, hadd]

theorem runEntries_of_run_error {entry : Entry}
    (h : s.scope.run entry.text = .error halt) (rest : List Entry) :
    (s.runEntries (entry :: rest)).printed = [] ∧
      (s.runEntries (entry :: rest)).halt = some halt := by
  rw [runEntries_cons_of_run_error h]
  exact ⟨rfl, rfl⟩

end

/-- **A line comes to what its expression evaluates to**, be it a value or not. -/
theorem fst_add (s : Session) (line : String) (number : Int) : (s.add line number).1 =
    Outcome.ofFaulty (Expr.ofSource line) >>= fun e => evaluate depthLimit e s.scope := by
  rw [add, Scope.run]
  cases Expr.ofSource line with
  | error fault => rfl
  | ok e =>
    rw [Outcome.ofFaulty, Outcome.ok_bind, Outcome.ok_bind]
    cases evaluate depthLimit e s.scope <;> rfl

end Session

/-! ## The scope of a session -/

namespace Session

@[simp] theorem scope_add (s : Session) (line : String) (number : Int) :
    (s.add line number).2.scope = s.scope := by
  unfold add
  split <;> rfl

theorem scope_pop {s next : Session} {printed : String} (h : s.pop = some (printed, next)) :
    next.scope = s.scope := by
  unfold pop at h
  split at h
  · simp at h
  · obtain ⟨-, rfl⟩ := Prod.mk.inj (Option.some.inj h)
    rfl

/-- **A guarded evaluation leaves the scope as it was.** -/
@[simp] theorem scope_attempt (s : Session) (line : String) (number : Int) :
    (s.attempt line number).session.scope = s.scope := by
  have hadd := s.scope_add line number
  unfold attempt
  split
  · next h => rwa [h] at hadd
  · next h =>
    rw [h] at hadd
    split
    · next hpop => rw [← hadd, ← scope_pop hpop]
    · exact hadd

/-- **Running entries leaves the scope as it was.** -/
theorem scope_runEntries (s : Session) (entries : List Entry) :
    (s.runEntries entries).session.scope = s.scope := by
  induction entries generalizing s with
  | nil => rfl
  | cons entry rest ih =>
    have hadd := scope_add { s with waiting := rest } entry.text entry.number
    unfold runEntries
    split
    · next h => rwa [h] at hadd
    · next h =>
      rw [h] at hadd
      split
      · next hpop => rw [ih, scope_pop hpop, hadd]
      · rw [ih, hadd]

/-- **A session that is loaded** is in the scope that programs start in, and what it waits for are
the entries of its file, or nothing if it is for typed lines. -/
theorem of_ofFile {reporter : Reporter} {path : String} {bytes : Option (List UInt8)}
    {asTyped showTree : Bool} {s : Session}
    (h : ofFile reporter path bytes asTyped showTree = .ok s) :
    s.scope = .standard ∧ (s.waiting = [] ∨ load path bytes = .ok s.waiting) := by
  simp only [ofFile] at h
  split at h
  · split at h
    · obtain rfl := Except.ok.inj h
      exact ⟨rfl, .inl rfl⟩
    · simp at h
  · split at h
    · simp at h
    · next hload =>
      obtain rfl := Except.ok.inj h
      exact ⟨rfl, .inr hload⟩

/-- **What is loaded was gathered** from the lines of a file that can be read, up to a finished
one. -/
theorem exists_gathering_of_load {path : String} {bytes : Option (List UInt8)}
    {entries : List Entry} (h : load path bytes = .ok entries) :
    ∃ content cs g, bytes = some content ∧ Utf8.decode content = .ok cs ∧
      (Gathering.mk [] false).feedAll 1 (fileLines cs) = some g ∧ g.unfinished = false ∧
      entries = g.inOrder := by
  unfold load at h
  split at h
  · cases h
  split at h
  · cases h
  next content =>
  unfold entriesOf at h
  split at h
  · cases h
  next cs hdecode =>
  split at h
  · next g hg =>
    split at h
    · cases h
    · next hfinished =>
      exact ⟨content, cs, g, rfl, hdecode, hg, Bool.eq_false_iff.mpr hfinished,
        (Except.ok.inj h).symm⟩
  · cases h

/-- What is loaded is told by its entries. -/
theorem exists_of_map_waiting {result : Except Incident Session} {entries : List Entry}
    (h : result.toOption.map waiting = some entries) :
    ∃ s, result = .ok s ∧ s.waiting = entries := by
  cases result with
  | error => simp [Except.toOption] at h
  | ok s => exact ⟨s, rfl, Option.some.inj h⟩

end Session

/-! ## One line in the shell -/

namespace Shell

/-- The piece of program that a typed line is: an empty one if it is blank and text is held. -/
def piece? (s : Shell) (line : String) : Option String :=
  match Command.ofLine line with
  | .blank => if s.held.isEmpty then none else some ""
  | .program text => some text
  | .help | .leave | .endOfInput => none

/-- **The text that a typed line hands to the session**: what its piece of program makes with the
held text, unless that is unfinished. -/
def handed? (s : Shell) (line : String) : Option String :=
  ((s.piece? line).map s.joined).filter fun text => !isUnfinished text

/-- The shell after lines typed one after another. -/
def after (s : Shell) (lines : List String) : Shell :=
  lines.foldl (fun s line => (s.step line).shell) s

theorem after_nil (s : Shell) : s.after [] = s := rfl

theorem after_cons (s : Shell) (line : String) (lines : List String) :
    s.after (line :: lines) = (s.step line).shell.after lines := by
  rw [after, List.foldl_cons, after]

theorem joined_of_held_eq {s : Shell} (h : s.held = "") (piece : String) :
    s.joined piece = trimEnd piece := by
  rw [joined, String.isEmpty_iff.mpr h, if_pos rfl]

theorem joined_of_held_ne {s : Shell} (h : s.held ≠ "") (piece : String) :
    s.joined piece = trimEnd (s.held ++ " " ++ piece) := by
  rw [joined, if_neg (by simpa using h)]

/-- A line that is no piece of program leaves the shell as it was. -/
theorem shell_step_of_none {s : Shell} {line : String} (h : s.piece? line = none) :
    (s.step line).shell = s := by
  cases hcommand : Command.ofLine line with
  | blank =>
    have hheld : s.held.isEmpty = true := by simpa [piece?, hcommand] using h
    simp only [step, hcommand, hheld, if_true]
  | program text => simp [piece?, hcommand] at h
  | help | leave | endOfInput => simp only [step, hcommand]

/-- A piece of program is taken in. -/
theorem step_of_some {s : Shell} {line piece : String} (h : s.piece? line = some piece) :
    s.step line = s.takeProgram piece := by
  cases hcommand : Command.ofLine line with
  | blank =>
    have hheld : s.held.isEmpty = false ∧ "" = piece := by simpa [piece?, hcommand] using h
    simp only [step, hcommand, hheld, if_false, Bool.false_eq_true]
  | program text =>
    have htext : text = piece := by simpa [piece?, hcommand] using h
    simp only [step, hcommand, htext]
  | help | leave | endOfInput => simp [piece?, hcommand] at h

/-- An unfinished text is held, and the session not touched. -/
theorem shell_takeProgram_of_unfinished {s : Shell} {piece : String}
    (h : isUnfinished (s.joined piece) = true) : (s.takeProgram piece).shell =
      { s with held := s.joined piece, prompt := .continuation, lineNumber := s.lineNumber + 1 } := by
  simp only [takeProgram, h, if_true]

/-- A finished text is evaluated, and nothing held. -/
theorem shell_takeProgram_of_finished {s : Shell} {piece : String}
    (h : isUnfinished (s.joined piece) = false) : (s.takeProgram piece).shell =
      ⟨(s.session.attempt (s.joined piece) (s.lineNumber + 1 : Nat)).session, "", .fresh,
        s.lineNumber + 1⟩ := by
  simp only [takeProgram, h, if_false, Bool.false_eq_true]
  split <;> rfl

/-- **Nothing but the text that a line hands over reaches the session.** -/
theorem session_step (s : Shell) (line : String) : (s.step line).shell.session =
    (s.handed? line).elim s.session fun text =>
      (s.session.attempt text (s.lineNumber + 1 : Nat)).session := by
  unfold handed?
  cases hpiece : s.piece? line with
  | none => rw [shell_step_of_none hpiece]; rfl
  | some piece =>
    rw [step_of_some hpiece]
    cases hunfinished : isUnfinished (s.joined piece) with
    | true => simp [shell_takeProgram_of_unfinished hunfinished, Option.filter, hunfinished]
    | false => simp [shell_takeProgram_of_finished hunfinished, Option.filter, hunfinished]

/-- A text that is handed over is finished. -/
theorem isUnfinished_of_handed? {s : Shell} {line text : String} (h : s.handed? line = some text) :
    isUnfinished text = false := by
  simpa using (Option.filter_eq_some_iff.mp h).2

/-! ## Lines one after another -/

/-- A line leaves the scope as it was. -/
theorem scope_step (s : Shell) (line : String) :
    (s.step line).shell.session.scope = s.session.scope := by
  rw [session_step]
  cases s.handed? line with
  | some text => exact s.session.scope_attempt ..
  | none => rfl

/-- **What every line keeps is kept by all of them.** -/
theorem after_of_step {P : Shell → Prop} (hstep : ∀ s line, P s → P (s.step line).shell)
    {s : Shell} (h : P s) (lines : List String) : P (s.after lines) := by
  induction lines generalizing s with
  | nil => exact h
  | cons line lines ih =>
    rw [after_cons]
    exact ih (hstep s line h)

/-- **Whatever is typed, it is evaluated in the same scope.** -/
theorem scope_after (s : Shell) (lines : List String) :
    (s.after lines).session.scope = s.session.scope :=
  after_of_step (fun t line h => (t.scope_step line).trans h) rfl lines

/-- **Only unfinished text is held.** -/
def HoldsUnfinished (s : Shell) : Prop := s.held = "" ∨ isUnfinished s.held = true

theorem HoldsUnfinished.step {s : Shell} (h : s.HoldsUnfinished) (line : String) :
    (s.step line).shell.HoldsUnfinished := by
  cases hpiece : s.piece? line with
  | none => rwa [shell_step_of_none hpiece]
  | some piece =>
    rw [step_of_some hpiece]
    cases hunfinished : isUnfinished (s.joined piece) with
    | true =>
      rw [shell_takeProgram_of_unfinished hunfinished]
      exact .inr hunfinished
    | false =>
      rw [shell_takeProgram_of_finished hunfinished]
      exact .inl rfl

theorem HoldsUnfinished.after {s : Shell} (h : s.HoldsUnfinished) (lines : List String) :
    (s.after lines).HoldsUnfinished :=
  after_of_step (fun _ line h => h.step line) h lines

end Shell

/-- **A talk is the shell after some of its lines**, the end of the input being one of them. -/
theorem Program.exists_converse_eq_after (s : Shell) (lines : List String) :
    ∃ answered, answered <+: lines ++ ["EOF"] ∧ (converse s lines).1 = s.after answered := by
  induction lines generalizing s with
  | nil => exact ⟨["EOF"], List.prefix_rfl, rfl⟩
  | cons line lines ih =>
    obtain ⟨answered, hprefix, hanswered⟩ := ih (s.step line).shell
    have hmore : line :: answered <+: line :: lines ++ ["EOF"] := by simpa using hprefix
    rw [← Shell.after_cons] at hanswered
    simp only [converse]
    match (s.step line).reply with
    | .leave | .broken _ =>
      refine ⟨[line], by simp, ?_⟩
      rw [Shell.after_cons, Shell.after_nil]
    | .handled | .idle => exact ⟨line :: answered, hmore, hanswered⟩

end Lisplet
