import Lisplet.Arguments
import Lisplet.History
import Lisplet.Shell

/-!
# Program — a whole run

The program runs a file or talks with the user.  A run is a function of the command line, the
surroundings, the files and the typed input; what it prints, how it ends and the files it leaves
are its outcome.
-/

namespace Lisplet

/-- How a run ends. -/
inductive Ending where
  /-- All is done. -/
  | done
  /-- With a status. -/
  | exit (status : Nat)
  /-- By a failure that nothing settles. -/
  | failure (name detail : String)
deriving DecidableEq, Repr

namespace Program

/-- What a run comes to. -/
structure Outcome where
  output : String
  errors : String := ""
  ending : Ending
  files : FileTree

/-- How a run ends that breaks off with an incident. -/
def endingOf (incident : Incident) : Fate → Ending
  | .resumed => .done
  | .exited status => .exit status
  | .passed =>
    match incident with
    | .foreign name detail => .failure name detail
    | _ => .done

/-- The reporter that a run starts with: every fault ends the program. -/
def reporter (style : Style) : Reporter := { style, fatal := true }

/-! ## Running a file -/

/-- The text and the ending of a run of the file at a path, whose bytes are given if it can be
read: the results of its entries, each on lines of its own, up to the first fault. -/
def runFile (style : Style) (path : String) (bytes : Option (List UInt8)) (tree : Bool) :
    String × Ending :=
  match Session.ofFile (reporter style) path bytes false tree with
  | .error incident =>
    let settled := ((reporter style).addFile path).settle incident
    (settled.output, endingOf incident settled.fate)
  | .ok session =>
    let run := session.run
    let printed := String.join (run.printed.map (· ++ "\n"))
    match run.halt with
    | none => (printed, .done)
    | some halt =>
      let attempt := run.session.settle halt.incident
      (printed ++ attempt.output, endingOf halt.incident attempt.fate)

/-! ## Talking with the user -/

/-- The shell of an interactive run. -/
def shell (style : Style) (tree : Bool) : Shell :=
  { session := Session.typed (reporter style) .standard tree }

/-- The warning for a history that cannot be loaded. -/
def loadWarning (path : String) (why : String) : Message :=
  ⟨"failed to read history file ", [(path, ": "), (why, "")], []⟩

/-- The warning for a history that cannot be saved. -/
def saveWarning (path : String) (why : String) : Message :=
  ⟨"failed to write history file ", [(path, ": "), (why, "")], []⟩

/-- Answers typed lines one after another, each after its prompt, until one ends the talk; the end
of the lines is the end of the input. -/
def converse (s : Shell) : List String → Shell × String
  | [] =>
    let step := s.step "EOF"
    (step.shell, s.prompt.text ++ step.output)
  | line :: lines =>
    let step := s.step line
    let output := s.prompt.text ++ step.output
    match step.reply with
    | .leave | .broken _ => (step.shell, output)
    | .handled | .idle =>
      let (s, more) := converse step.shell lines
      (s, output ++ more)

/-- **An interactive run**: the history is loaded, the user greeted and answered, and the history
saved. -/
def interact (style : Style) (tree : Bool) (historyPath : String) (files : FileTree)
    (typed : String) : Outcome :=
  let start := shell style tree
  let (history, loading) : History × String :=
    match History.load {} files historyPath with
    | .absent => ({}, "")
    | .loaded h => (h, "")
    | .failed fault => ({}, start.session.reporter.warningText (loadWarning historyPath fault.text))
  let (s, talk) := converse start (typedLines typed)
  let output := loading ++ Shell.intro ++ "\n" ++ talk
  let (files, fault) := history.save files historyPath
  match fault with
  | none => { output, ending := .done, files }
  | some .noPath =>
    let incident := Incident.foreign "ValueError" FileFault.noPath.text
    let settled := s.session.reporter.settle incident
    { output := output ++ settled.output, ending := endingOf incident settled.fate, files }
  | some fault =>
    let warning := s.session.reporter.warningText (saveWarning historyPath fault.text)
    { output := output ++ warning, ending := .done, files }

/-! ## The whole program -/

/-- **A run of the program.** -/
def run (style : Style) (argv : List String) (surroundings : History.Surroundings)
    (files : FileTree) (typed : String) : Outcome :=
  match Arguments.read argv with
  | .error refusal =>
    { output := "", errors := Arguments.refusalText refusal, ending := .exit 2, files }
  | .ok .help => { output := Arguments.helpText, ending := .exit 0, files }
  | .ok (.run arguments) =>
    match arguments.file with
    | some path =>
      let (output, ending) := runFile style path (files.read? path) arguments.tree
      { output, ending, files }
    | none =>
      let historyPath :=
        (History.nonEmpty arguments.history.path?).getD (History.path surroundings)
      interact style arguments.tree historyPath files typed

end Program

end Lisplet
