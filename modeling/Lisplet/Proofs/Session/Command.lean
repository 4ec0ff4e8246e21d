import Lisplet.Proofs.Session.Shell
import Lisplet.Proofs.Token.Numeral

/-!
# Proofs/Session/Command — lines that are taken for commands

What a line is, is told by its front alone: a question mark or a command word there makes it a
command, whatever follows, and whether or not the shell holds text (`TakenForCommand`).  A line that
goes on with the held text is therefore taken up exactly when it does not start like that
(`continuation_is_taken_up`); a symbol such as `exit-code` at the front of such a line ends the talk
in the middle of a program (`continuation_is_dropped`).
-/

namespace Lisplet

namespace Command

/-! ## The front of a line -/

/-- The words that are commands. -/
def words : List String := ["help", "exit", "EOF"]

/-- **A text starts with a word** if the word stands at its front and no letter, digit or underscore
behind it. -/
def StartsWith (word text : String) : Prop :=
  ∃ rest, text.toList = word.toList ++ rest ∧ ∀ c, rest.head? = some c → isNameChar c = false

/-- **A text that is taken for a command**: it starts with a question mark or a command word. -/
def TakenForCommand (text : String) : Prop :=
  text.toList.head? = some '?' ∨ ∃ word ∈ words, StartsWith word text

/-- The longest run of letters, digits and underscores at the front of a text. -/
def firstName (text : String) : String := String.ofList (text.toList.takeWhile isNameChar)

/-- What a text starts with is its first name. -/
theorem startsWith_iff {word text : String} (hword : ∀ c ∈ word.toList, isNameChar c = true) :
    StartsWith word text ↔ firstName text = word := by
  constructor
  · rintro ⟨rest, htext, hrest⟩
    rw [firstName, htext, takeWhile_append_of_head? hword hrest, String.ofList_toList]
  · rintro rfl
    refine ⟨text.toList.dropWhile isNameChar, ?_, fun c hc => ?_⟩
    · rw [firstName, String.toList_ofList, List.takeWhile_append_dropWhile]
    · exact eq_false_of_head?_dropWhile hc

theorem isNameChar_of_mem_words {word : String} (h : word ∈ words) :
    ∀ c ∈ word.toList, isNameChar c = true := by
  have hall : words.all (·.toList.all isNameChar) = true := by decide
  exact List.all_eq_true.mp (List.all_eq_true.mp hall word h)

theorem takenForCommand_iff {text : String} :
    TakenForCommand text ↔ text.toList.head? = some '?' ∨ firstName text ∈ words := by
  refine or_congr_right ⟨?_, fun h => ⟨_, h, (startsWith_iff (isNameChar_of_mem_words h)).mpr rfl⟩⟩
  rintro ⟨word, hword, hstarts⟩
  rwa [(startsWith_iff (isNameChar_of_mem_words hword)).mp hstarts]

instance (text : String) : Decidable (TakenForCommand text) := decidable_of_iff' _ takenForCommand_iff

/-! ## What a line is, by its front -/

theorem ofLine_of_question {line : String} (h : (trim line).toList.head? = some '?') :
    ofLine line = .help := by
  obtain ⟨rest, hrest⟩ := List.head?_eq_some_iff.mp h
  simp only [ofLine, hrest]

theorem ofLine_of_ne_question {line : String} (hquestion : (trim line).toList.head? ≠ some '?') :
    ofLine line = if (trim line).isEmpty then .blank else
      match firstName (trim line) with
      | "help" => .help
      | "exit" => .leave
      | "EOF" => .endOfInput
      | _ => .program (trim line) := by
  have hempty : (trim line).isEmpty = (trim line).toList.isEmpty := by
    rw [Bool.eq_iff_iff, String.isEmpty_iff, List.isEmpty_iff, String.toList_eq_nil_iff]
  rw [ofLine, hempty, firstName]
  generalize (trim line).toList = cs at hquestion ⊢
  split
  · rfl
  · simp at hquestion
  · next hne _ =>
    have hempty : ¬ cs.isEmpty = true := by simpa using hne
    exact (if_neg hempty).symm

/-- A line that no command stands in front of is a piece of program, or blank. -/
theorem ofLine_of_front {line : String} (hquestion : (trim line).toList.head? ≠ some '?')
    (hword : firstName (trim line) ∉ words) :
    ofLine line = if (trim line).isEmpty then .blank else .program (trim line) := by
  rw [ofLine_of_ne_question hquestion]
  generalize firstName (trim line) = word at hword ⊢
  split
  · rfl
  · split <;> simp_all [words]

theorem ofLine_of_not_takenForCommand {line : String} (h : ¬ TakenForCommand (trim line)) :
    ofLine line = if (trim line).isEmpty then .blank else .program (trim line) := by
  rw [takenForCommand_iff, not_or] at h
  exact ofLine_of_front h.1 h.2

/-- **A line that is taken for a command asks for help, or to leave** if it starts with one of the
words for that. -/
theorem ofLine_of_takenForCommand {line : String} (h : TakenForCommand (trim line)) :
    (ofLine line = .help ∧ firstName (trim line) ≠ "exit" ∧ firstName (trim line) ≠ "EOF") ∨
      (ofLine line = .leave ∧ firstName (trim line) = "exit") ∨
      (ofLine line = .endOfInput ∧ firstName (trim line) = "EOF") := by
  by_cases hquestion : (trim line).toList.head? = some '?'
  · obtain ⟨rest, hrest⟩ := List.head?_eq_some_iff.mp hquestion
    have hname : firstName (trim line) = "" := by
      rw [firstName, hrest]
      rfl
    refine .inl ⟨ofLine_of_question hquestion, ?_⟩
    rw [hname]
    decide
  · have hword := (takenForCommand_iff.mp h).resolve_left hquestion
    have hne : (trim line).isEmpty = false := by
      by_contra hempty
      rw [Bool.not_eq_false, String.isEmpty_iff] at hempty
      rw [hempty] at hword
      exact absurd hword (by decide)
    rw [ofLine_of_ne_question hquestion, hne, if_neg Bool.false_ne_true]
    generalize firstName (trim line) = word at hword ⊢
    obtain rfl | rfl | rfl : word = "help" ∨ word = "exit" ∨ word = "EOF" := by
      simpa [words] using hword
    · exact .inl ⟨rfl, by decide, by decide⟩
    · exact .inr (.inl ⟨rfl, rfl⟩)
    · exact .inr (.inr ⟨rfl, rfl⟩)

end Command

/-! ## Lines behind held text -/

namespace Shell

/-- The held text with a line behind it. -/
def continued (s : Shell) (line : String) : String := trimEnd (s.held ++ " " ++ trim line)

/-- **A line is taken up** behind the held text: what the two make is held again if it is unfinished
and evaluated as a whole if it is not, and the shell goes on. -/
structure TakesUp (s : Shell) (line : String) : Prop where
  held_again : isUnfinished (s.continued line) = true →
    (s.step line).output = "" ∧ (s.step line).shell =
      { s with
        held := s.continued line
        prompt := .continuation
        lineNumber := s.lineNumber + 1 }
  evaluated : isUnfinished (s.continued line) = false →
    let attempt := s.session.attempt (s.continued line) (s.lineNumber + 1 : Nat)
    (s.step line).output = attempt.output ++ (attempt.printed.map (· ++ "\n")).getD "" ∧
      (s.step line).shell = ⟨attempt.session, "", .fresh, s.lineNumber + 1⟩
  goes_on : (s.step line).reply = .handled

variable {s : Shell} {line : String}

/-- A line that is taken up counts. -/
theorem TakesUp.lineNumber (h : s.TakesUp line) :
    (s.step line).shell.lineNumber = s.lineNumber + 1 := by
  cases hunfinished : isUnfinished (s.continued line) with
  | true => rw [(h.held_again hunfinished).2]
  | false => rw [(h.evaluated hunfinished).2]

/-- Behind held text, a line that is not taken for a command is a piece of program even if it is
blank. -/
theorem piece?_of_not_takenForCommand (hheld : s.held ≠ "")
    (h : ¬ Command.TakenForCommand (trim line)) : s.piece? line = some (trim line) := by
  rw [piece?, Command.ofLine_of_not_takenForCommand h]
  cases hblank : (trim line).isEmpty with
  | true => simp [hheld, String.isEmpty_iff.mp hblank]
  | false => simp

/-- A line that is taken for a command leaves the shell as it was. -/
theorem shell_step_of_takenForCommand (h : Command.TakenForCommand (trim line)) :
    (s.step line).shell = s := by
  refine shell_step_of_none ?_
  rw [piece?]
  obtain ⟨hline, -⟩ | ⟨hline, -⟩ | ⟨hline, -⟩ := Command.ofLine_of_takenForCommand h <;> rw [hline]

/-- **A piece of program behind held text is taken up.** -/
theorem Sound.takesUp {start : Session} (h : Sound start s) (hheld : s.held ≠ "")
    (hpiece : s.piece? line = some (trim line)) : s.TakesUp line := by
  have hjoined : s.joined (trim line) = s.continued line := joined_of_held_ne hheld _
  have hstep := step_of_some hpiece
  refine ⟨fun hunfinished => ?_, fun hfinished => ?_, ?_⟩
  · rw [← hjoined] at hunfinished ⊢
    simp only [hstep, Shell.takeProgram, hunfinished, if_true, and_self]
  · rw [← hjoined] at hfinished ⊢
    rw [hstep, h.takeProgram_of_finished hfinished]
    exact ⟨rfl, rfl⟩
  · rw [hstep, h.reply_takeProgram]

end Shell

/-- **A line that goes on with the held text is taken up, unless it starts like a command.**  Over a
session that is made for typed lines, in any scope, and after any lines that leave text held:
whatever is typed next joins the held text and is held again or evaluated with it, and the shell
goes on, if and only if it starts neither with a question mark nor with a command word.  Otherwise
it is dropped, the shell stays as it was, and it stops if the word is one of the two that ask to
leave. -/
theorem continuation_is_taken_up {reporter : Reporter} (hidle : reporter.Idle) {session : Session}
    (hmade : (∃ scope tree, session = .typed reporter scope tree) ∨
      ∃ path bytes tree, Session.ofFile reporter path bytes true tree = .ok session)
    (lines : List String) (hheld : (Shell.after { session } lines).held ≠ "") (line : String) :
    let s := Shell.after { session } lines
    (s.TakesUp line ↔ ¬ Command.TakenForCommand (trim line)) ∧
    (Command.TakenForCommand (trim line) → (s.step line).shell = s ∧
      ((s.step line).reply = .leave ↔
        Command.StartsWith "exit" (trim line) ∨ Command.StartsWith "EOF" (trim line))) := by
  intro s
  have hsound : Shell.Sound session s := (Shell.sound_of_made hidle hmade).after lines
  refine ⟨⟨fun htaken hcommand => ?_, fun hcommand => ?_⟩, fun hcommand =>
    ⟨Shell.shell_step_of_takenForCommand hcommand, ?_⟩⟩
  · have hnumber := htaken.lineNumber
    rw [Shell.shell_step_of_takenForCommand hcommand] at hnumber
    omega
  · exact hsound.takesUp hheld (Shell.piece?_of_not_takenForCommand hheld hcommand)
  · rw [hsound.reply_step_eq_leave_iff,
      Command.startsWith_iff (Command.isNameChar_of_mem_words (by decide)),
      Command.startsWith_iff (Command.isNameChar_of_mem_words (by decide))]
    obtain ⟨hline, hexit, heof⟩ | ⟨hline, hname⟩ | ⟨hline, hname⟩ :=
      Command.ofLine_of_takenForCommand hcommand
    · simp [hline, hexit, heof]
    · simp [hline, hname]
    · simp [hline, hname]

/-- Behind `(f`, the line `exits)` is taken up and `?x)` is not. -/
theorem continuation_is_taken_up_exits :
    let session := Session.typed (Program.reporter .plain) .standard false
    let s := Shell.after { session } ["(f"]
    (Program.reporter .plain).Idle ∧ s.held ≠ "" ∧
      s.TakesUp "exits)" ∧ s.continued "exits)" = "(f exits)" ∧
      Command.TakenForCommand (trim "?x)") ∧ ¬ s.TakesUp "?x)" ∧ (s.step "?x)").shell = s := by
  intro session s
  have hidle := Program.idle_reporter .plain
  have hheld : s.held ≠ "" := by decide +kernel
  have hquestion : Command.TakenForCommand (trim "?x)") := by decide +kernel
  have hstep := @continuation_is_taken_up _ hidle session (.inl ⟨_, _, rfl⟩) ["(f"] hheld
  refine ⟨hidle, hheld, (hstep "exits)").1.mpr (by decide +kernel), by decide +kernel, hquestion,
    fun h => ?_, ((hstep "?x)").2 hquestion).1⟩
  exact (hstep "?x)").1.mp h hquestion

/-- **A line that goes on with the held text may be dropped and end the talk**: `exit-code)` behind
`(lambda (exit-code)`, although the two make an expression with a value. -/
theorem continuation_is_dropped :
    let session := Session.typed (Program.reporter .plain) .standard false
    let s := Shell.after { session } ["(lambda (exit-code)"]
    s.held = "(lambda (exit-code)" ∧ trim "exit-code)" ∉ Command.words ∧
      s.continued "exit-code)" = "(lambda (exit-code) exit-code)" ∧
      isUnfinished (s.continued "exit-code)") = false ∧
      (s.step "exit-code)").reply = .leave ∧ (s.step "exit-code)").shell.held = s.held ∧
      ¬ s.TakesUp "exit-code)" := by
  intro session s
  have hheld : s.held = "(lambda (exit-code)" := by decide +kernel
  have hreply : (s.step "exit-code)").reply = .leave := by decide +kernel
  have hshell : (s.step "exit-code)").shell = s :=
    Shell.shell_step_of_takenForCommand (by decide +kernel)
  refine ⟨hheld, by decide +kernel, by decide +kernel, by decide +kernel, hreply, ?_, fun h => ?_⟩
  · rw [hshell]
  · have hgoes := h.goes_on
    rw [hreply] at hgoes
    cases hgoes

end Lisplet
