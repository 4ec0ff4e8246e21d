import Lisplet.Program

/-!
# Main — the command line

Reads the arguments, the surroundings, the files and the typed lines, and prints.  What is printed
is decided elsewhere.
-/

namespace Lisplet

/-- The bytes of the file at a path, if it can be read. -/
def readBytes? (path : String) : IO (Option (List UInt8)) := do
  try
    let bytes ← IO.FS.readBinFile path
    return some bytes.toList
  catch _ => return none

/-- The wording of a failed operation on files. -/
def failureText : IO.Error → String
  | .alreadyExists _ _ details | .inappropriateType _ _ details | .noFileOrDirectory _ _ details
  | .invalidArgument _ _ details | .permissionDenied _ _ details => details
  | error => toString error

/-- Loads the history, with a warning if there is a file and it cannot be read. -/
def loadHistory (reporter : Reporter) (path : String) : IO History := do
  try
    let bytes ← IO.FS.readBinFile path
    return ⟨History.entriesOf bytes.toList⟩
  catch
    | .noFileOrDirectory .. => return {}
    | _ =>
      IO.print (reporter.warningText (Program.loadWarning path FileFault.invalid.text))
      return {}

/-- Saves the history, with a warning if that fails. -/
def saveHistory (reporter : Reporter) (path : String) (history : History) : IO Unit := do
  try
    let directory := FileTree.directoryOf path
    unless directory.isEmpty do IO.FS.createDirAll directory
    IO.FS.writeBinFile path ⟨history.bytes.toArray⟩
  catch error =>
    IO.print (reporter.warningText (Program.saveWarning path (failureText error)))

/-- Answers typed lines until one ends the talk. -/
partial def talk (input : IO.FS.Stream) (s : Shell) : IO Shell := do
  IO.print s.prompt.text
  (← IO.getStdout).flush
  let line ← input.getLine
  let step := s.step (if line.isEmpty then "EOF" else line)
  IO.print step.output
  match step.reply with
  | .leave | .broken _ => return step.shell
  | .handled | .idle => talk input step.shell

end Lisplet

open Lisplet

/-- The program. -/
def main (argv : List String) : IO UInt32 := do
  let style : Style := if ← (← IO.getStdout).isTty then .adorned else .plain
  match Arguments.read argv with
  | .error refusal =>
    IO.eprint (Arguments.refusalText refusal)
    return 2
  | .ok .help =>
    IO.print Arguments.helpText
    return 0
  | .ok (.run arguments) =>
    match arguments.file with
    | some path =>
      let (output, ending) := Program.runFile style path (← readBytes? path) arguments.tree
      IO.print output
      match ending with
      | .done => return 0
      | .exit status => return status.toUInt32
      | .failure _ _ => return 1
    | none =>
      let surroundings : History.Surroundings :=
        { file := ← IO.getEnv "RLISP_HISTFILE"
          cache := ← IO.getEnv "XDG_CACHE_HOME"
          home := (← IO.getEnv "HOME").getD "" }
      let path := (History.nonEmpty arguments.history.path?).getD (History.path surroundings)
      let start := Program.shell style arguments.tree
      let history ← loadHistory start.session.reporter path
      IO.println Shell.intro
      let s ← talk (← IO.getStdin) start
      saveHistory s.session.reporter path history
      return 0
