import Lisplet.Proofs.Session.Stack
import Lisplet.Proofs.Session.Trimmed

/-!
# Proofs/Session/Shell — the shell as a state machine

Between two lines a shell is in one of two states: it holds unfinished text and asks for its rest,
or it holds nothing and asks for a new line.  In both, no result is pending and no line at work
(`Shell.Sound`).  A line that leads from one state to the next never breaks the shell: what goes
wrong with it is reported, and the next line is taken as if nothing had happened (`shell_is_sound`).
-/

namespace Lisplet

namespace Shell

/-! ## Lines and their number -/

/-- What lines typed one after another give, where `f` tells what each of them does. -/
def collect {α : Type} (f : Shell → String → Option α) (s : Shell) : List String → List α
  | [] => []
  | line :: lines => (f s line).toList ++ (s.step line).shell.collect f lines

theorem lineNumber_takeProgram (s : Shell) (piece : String) :
    (s.takeProgram piece).shell.lineNumber = s.lineNumber + 1 := by
  cases hunfinished : isUnfinished (s.joined piece) with
  | true => rw [shell_takeProgram_of_unfinished hunfinished]
  | false => rw [shell_takeProgram_of_finished hunfinished]

theorem lineNumber_step (s : Shell) (line : String) :
    (s.step line).shell.lineNumber = s.lineNumber + (s.piece? line).toList.length := by
  cases hpiece : s.piece? line with
  | none => rw [shell_step_of_none hpiece]; rfl
  | some piece => rw [step_of_some hpiece, lineNumber_takeProgram]; rfl

/-- **The lines that count are the pieces of program.** -/
theorem lineNumber_after (s : Shell) (lines : List String) :
    (s.after lines).lineNumber = s.lineNumber + (s.collect piece? lines).length := by
  induction lines generalizing s with
  | nil => rfl
  | cons line lines ih =>
    rw [after_cons, ih, lineNumber_step, collect, List.length_append, Nat.add_assoc]

/-- What is handed over is what a piece of program makes. -/
theorem exists_piece_of_handed? {s : Shell} {line text : String} (h : s.handed? line = some text) :
    ∃ piece, s.piece? line = some piece ∧ s.joined piece = text := by
  obtain ⟨hmap, -⟩ := Option.filter_eq_some_iff.mp h
  exact Option.map_eq_some_iff.mp hmap

/-! ## What reaches the session -/

/-- The entry that a typed line hands to the session, with the number of that line. -/
def submitted? (s : Shell) (line : String) : Option Entry :=
  (s.handed? line).map (⟨·, (s.lineNumber + 1 : Nat)⟩)

theorem submitted?_of_piece? {s : Shell} {line piece : String} (h : s.piece? line = some piece) :
    s.submitted? line = if isUnfinished (s.joined piece) then none
      else some ⟨s.joined piece, (s.lineNumber + 1 : Nat)⟩ := by
  rw [submitted?, handed?, h, Option.map_some]
  cases hunfinished : isUnfinished (s.joined piece) <;> simp [Option.filter, hunfinished]

/-- **A session evaluates the entries that are handed over** one after another, and nothing else. -/
theorem session_after (s : Shell) (lines : List String) : (s.after lines).session =
    (s.collect submitted? lines).foldl
      (fun session entry => (session.attempt entry.text entry.number).session) s.session := by
  induction lines generalizing s with
  | nil => rfl
  | cons line lines ih =>
    rw [after_cons, ih, collect, List.foldl_append, session_step, submitted?]
    cases s.handed? line <;> rfl

/-! ## Between two lines -/

/-- **A shell in good order**, over a session that started as `start`: no result is pending and no
line at work, and it asks for the rest of the text that it holds if that is unfinished, and holds
none otherwise. -/
structure Sound (start : Session) (s : Shell) : Prop where
  shows : start.Shows s.session ⟨[], none⟩
  prompt : s.prompt = .continuation ↔ s.held ≠ ""
  unfinished : s.held ≠ "" ↔ isUnfinished s.held = true
  trimmed : trimEnd s.held = s.held

/-- A shell that holds nothing. -/
theorem sound_fresh {start session : Session} (h : start.Shows session ⟨[], none⟩) (number : Nat) :
    Sound start ⟨session, "", .fresh, number⟩ where
  shows := h
  prompt := by simp
  unfinished := by simp [show isUnfinished "" = false from rfl]
  trimmed := show trimEnd "" = "" from rfl

/-- A shell over a session that is made for typed lines. -/
theorem sound_of_made {reporter : Reporter} (hidle : reporter.Idle) {session : Session}
    (hmade : (∃ scope tree, session = .typed reporter scope tree) ∨
      ∃ path bytes tree, Session.ofFile reporter path bytes true tree = .ok session) :
    Sound session { session } := by
  obtain ⟨hready, hresults⟩ : session.Ready ∧ session.results = [] := by
    obtain ⟨scope, tree, rfl⟩ | ⟨path, bytes, tree, hsession⟩ := hmade
    · exact ⟨Session.ready_typed hidle scope tree, rfl⟩
    · exact Session.ready_ofFile hidle hsession
  exact sound_fresh (hresults ▸ hready.shows) 0

namespace Sound

variable {start : Session} {s : Shell}

theorem takeProgram (h : Sound start s) (piece : String) :
    Sound start (s.takeProgram piece).shell := by
  cases hunfinished : isUnfinished (s.joined piece) with
  | true =>
    have hne := ne_empty_of_isUnfinished hunfinished
    rw [shell_takeProgram_of_unfinished hunfinished]
    exact ⟨h.shows, by simp [hne], by simp [hne, hunfinished], trimEnd_trimEnd _⟩
  | false =>
    rw [shell_takeProgram_of_finished hunfinished]
    exact sound_fresh (h.shows.attempt _ _) _

/-- **One line** leaves a shell in good order. -/
theorem step (h : Sound start s) (line : String) : Sound start (s.step line).shell := by
  cases hpiece : s.piece? line with
  | none => rwa [shell_step_of_none hpiece]
  | some piece =>
    rw [step_of_some hpiece]
    exact h.takeProgram piece

/-- **Any lines** do. -/
theorem after (h : Sound start s) (lines : List String) : Sound start (s.after lines) :=
  after_of_step (fun _ line h => h.step line) h lines

/-! ## What a line answers -/

/-- A finished text is answered by what the session says of it. -/
theorem takeProgram_of_finished (h : Sound start s) {piece : String}
    (hfinished : isUnfinished (s.joined piece) = false) :
    let attempt := s.session.attempt (s.joined piece) (s.lineNumber + 1 : Nat)
    s.takeProgram piece = ⟨⟨attempt.session, "", .fresh, s.lineNumber + 1⟩,
      attempt.output ++ (attempt.printed.map (· ++ "\n")).getD "", .handled⟩ := by
  have hfate := h.shows.fate_attempt (s.joined piece) (s.lineNumber + 1 : Nat)
  simp only [Shell.takeProgram, hfinished, if_false, Bool.false_eq_true, hfate]

/-- A piece of program is dealt with, whatever it comes to. -/
theorem reply_takeProgram (h : Sound start s) (piece : String) :
    (s.takeProgram piece).reply = .handled := by
  cases hunfinished : isUnfinished (s.joined piece) with
  | true => simp only [Shell.takeProgram, hunfinished, if_true]
  | false => rw [h.takeProgram_of_finished hunfinished]

/-- **Every line is answered**, and the shell stops only where it is told to. -/
theorem reply_step (h : Sound start s) (line : String) :
    (s.step line).reply = match Command.ofLine line with
      | .blank => if s.held.isEmpty then .idle else .handled
      | .help | .program _ => .handled
      | .leave | .endOfInput => .leave := by
  unfold Shell.step
  cases Command.ofLine line with
  | blank =>
    dsimp only
    split
    · rfl
    · exact h.reply_takeProgram ""
  | program text => exact h.reply_takeProgram text
  | help | leave | endOfInput => rfl

theorem reply_step_ne_broken (h : Sound start s) (line : String) (fate : Fate) :
    (s.step line).reply ≠ .broken fate := by
  rw [h.reply_step]
  cases Command.ofLine line with
  | blank => by_cases hheld : s.held.isEmpty = true <;> simp [hheld]
  | help | leave | endOfInput | program => simp

theorem reply_step_eq_leave_iff (h : Sound start s) (line : String) :
    (s.step line).reply = .leave ↔
      Command.ofLine line = .leave ∨ Command.ofLine line = .endOfInput := by
  rw [h.reply_step]
  cases Command.ofLine line with
  | blank => by_cases hheld : s.held.isEmpty = true <;> simp [hheld]
  | help | leave | endOfInput | program => simp

/-- A text that is handed over leaves nothing held, and is answered as it is on its own. -/
theorem step_of_handed? (h : Sound start s) {line text : String}
    (htext : s.handed? line = some text) :
    (s.step line).shell.held = "" ∧ (s.step line).shell.prompt = .fresh ∧
      (∀ e value, start.scope.run text = .ok (e, value) →
        (s.step line).output = start.shown ⟨e, value⟩ ++ "\n") ∧
      ∀ halt, start.scope.run text = .error halt →
        (s.step line).output = start.reportOf text (s.lineNumber + 1 : Nat) halt := by
  obtain ⟨piece, hpiece, rfl⟩ := exists_piece_of_handed? htext
  rw [step_of_some hpiece, h.takeProgram_of_finished (isUnfinished_of_handed? htext)]
  refine ⟨rfl, rfl, fun e value hrun => ?_, fun halt hrun => ?_⟩
  · obtain ⟨houtput, hprinted, -⟩ := h.shows.attempt_of_ok hrun (s.lineNumber + 1 : Nat)
    simp only [houtput, hprinted, Option.map_some, Option.getD_some, String.empty_append]
  · obtain ⟨houtput, hprinted, -⟩ := h.shows.attempt_of_error hrun (s.lineNumber + 1 : Nat)
    simp only [houtput, hprinted, Option.map_none, Option.getD_none, String.append_empty]

end Sound

end Shell

/-! ## A shell and its lines -/

/-- **The shell is a sound state machine and does not die of an input.**  Over a session that is
made for typed lines, in any scope, and after any lines: the shell asks for the rest of a line if
and only if it holds text, which is unfinished and trimmed; no result is pending, no line is at
work, and the lines that count are the pieces of program.  Whatever is typed next, it does not break
the shell, and the shell stops only if it is told to.  Either nothing reaches the session, or a text
is evaluated, and then nothing is held any more and the shell says its value or the one report of
it, whose message can always be made. -/
theorem shell_is_sound {reporter : Reporter} (hidle : reporter.Idle) {session : Session}
    (hmade : (∃ scope tree, session = .typed reporter scope tree) ∨
      ∃ path bytes tree, Session.ofFile reporter path bytes true tree = .ok session)
    (lines : List String) :
    let start : Shell := { session }
    let s := start.after lines
    (s.prompt = .continuation ↔ s.held ≠ "") ∧
    (s.held ≠ "" ↔ isUnfinished s.held = true) ∧
    trimEnd s.held = s.held ∧
    s.session.results = [] ∧
    (∀ entry ∈ s.session.reporter.trace, entry.2 = none) ∧
    s.lineNumber = (start.collect Shell.piece? lines).length ∧
    ∀ line : String,
      (∀ fate, (s.step line).reply ≠ .broken fate) ∧
      ((s.step line).reply = .leave ↔
        Command.ofLine line = .leave ∨ Command.ofLine line = .endOfInput) ∧
      (s.handed? line = none → (s.step line).shell.session = s.session) ∧
      ∀ text, s.handed? line = some text →
        (s.step line).shell.held = "" ∧ (s.step line).shell.prompt = .fresh ∧
        (∀ e value, session.scope.run text = .ok (e, value) →
          (s.step line).output = session.shown ⟨e, value⟩ ++ "\n") ∧
        ∀ halt, session.scope.run text = .error halt →
          (s.step line).output = session.reportOf text (s.lineNumber + 1 : Nat) halt ∧
          halt.diagnostic.internal = false ∧
          Message.ofTemplate halt.diagnostic.message.template halt.diagnostic.message.pieces =
            .ok halt.diagnostic.message := by
  intro start s
  have hsound : Shell.Sound session s := (Shell.sound_of_made hidle hmade).after lines
  refine ⟨hsound.prompt, hsound.unfinished, hsound.trimmed, hsound.shows.results,
    Reporter.working_eq_nil_iff.mp hsound.shows.working, ?_, fun line =>
    ⟨hsound.reply_step_ne_broken line, hsound.reply_step_eq_leave_iff line, fun hnone => ?_,
      fun text htext => ?_⟩⟩
  · rw [Shell.lineNumber_after, Nat.zero_add]
  · rw [Shell.session_step, hnone]
    rfl
  · obtain ⟨hheld, hprompt, hvalue, hreport⟩ := hsound.step_of_handed? htext
    exact ⟨hheld, hprompt, hvalue, fun halt hrun => ⟨hreport halt hrun, halt.internal_diagnostic,
      halt.plain_message.ofTemplate_template⟩⟩

/-- The lines `(f`, `help` and an empty one, and then `)`: the help is no piece of program, the
empty line is one, and what all of them make is evaluated as the third and reported.  Two more lines
make a `lambda`, which is printed. -/
theorem shell_is_sound_held :
    let session := Session.typed (Program.reporter .plain) .standard false
    let s := Shell.after { session } ["(f", "help", ""]
    let t := Shell.after { session } ["(f", "help", "", ")", "(lambda (x)"]
    (Program.reporter .plain).Idle ∧ s.prompt = .continuation ∧ s.held = "(f" ∧
      s.lineNumber = 2 ∧ s.handed? ")" = some "(f )" ∧ (s.step ")").shell.held = "" ∧
      (s.step ")").output =
        "  File '<in>', line 3:\n    (f )\nerror: symbol not found: f\n" ∧
      t.held = "(lambda (x)" ∧ t.handed? "x)" = some "(lambda (x) x)" ∧
      (t.step "x)").shell.prompt = .fresh ∧ (t.step "x)").output = "(lambda (x) x)\n" := by
  intro session s t
  have hidle := Program.idle_reporter .plain
  have hread : Expr.ofSource "(f )" = .ok (.list [.symbol "f"]) := by cbv
  have hrun : Scope.standard.run "(f )" = .error (.fault (.unbound "f")) := by
    rw [Scope.run, hread]
    rfl
  have hheld : s.held = "(f" := by decide +kernel
  have hne : s.held ≠ "" := by simp [hheld]
  have hhanded : s.handed? ")" = some "(f )" := by decide +kernel
  have hpieces : (Shell.collect Shell.piece? { session } ["(f", "help", ""]).length = 2 := by
    decide +kernel
  have hthanded : t.handed? "x)" = some "(lambda (x) x)" := by decide +kernel
  have hs : Shell.after { session } ["(f", "help", ""] = s := rfl
  have ht : Shell.after { session } ["(f", "help", "", ")", "(lambda (x)"] = t := rfl
  have hsound := @shell_is_sound _ hidle session (.inl ⟨.standard, false, rfl⟩) ["(f", "help", ""]
  have htsound := @shell_is_sound _ hidle session (.inl ⟨.standard, false, rfl⟩)
    ["(f", "help", "", ")", "(lambda (x)"]
  dsimp only at hsound htsound
  rw [hs] at hsound
  rw [ht] at htsound
  obtain ⟨hprompt, -, -, -, -, hnumber, hline⟩ := hsound
  obtain ⟨hempty, -, -, hreport⟩ := (hline ")").2.2.2 _ hhanded
  obtain ⟨-, hfresh, hprint, -⟩ := htsound.2.2.2.2.2.2 "x)" |>.2.2.2 _ hthanded
  refine ⟨hidle, hprompt.mpr hne, hheld, hnumber.trans hpieces, hhanded, hempty, ?_,
    by decide +kernel, hthanded, hfresh, (hprint _ _ Scope.run_identity).trans (by decide +kernel)⟩
  rw [(hreport _ hrun).1, hnumber, hpieces]
  decide +kernel

end Lisplet
