import Lisplet.Eval
import Lisplet.Report.Style

/-!
# Report — telling the user what went wrong

A `Reporter` knows which lines are being worked on, one for each file, and settles what goes wrong
there.  It prints the lines and the message; then a fatal reporter ends the program, and any other
one forgets the lines and lets the work go on.
-/

namespace Lisplet

/-! ## What is reported -/

/-- A message together with its kind; it is internal when the program is not to blame. -/
structure Diagnostic where
  kind : Kind
  message : Message
  internal : Bool := false

/-- A fault as it is reported. -/
def Fault.diagnostic (f : Fault) : Diagnostic := ⟨f.kind, f.message, false⟩

/-- What can break a piece of work off. -/
inductive Incident where
  /-- The program is at fault. -/
  | diagnostic (d : Diagnostic)
  /-- An evaluation nests too deep. -/
  | tooDeep
  /-- The user interrupts. -/
  | interrupt
  /-- The work itself asks to end the program. -/
  | departure
  /-- Something else fails, known by a name and a detail. -/
  | foreign (name detail : String)

/-- The incident of a fault. -/
def Fault.incident (f : Fault) : Incident := .diagnostic f.diagnostic

/-- The incident of an evaluation that ends without a value. -/
def Halt.incident : Halt → Incident
  | .fault f => f.incident
  | .tooDeep => .tooDeep

/-- The report of an interruption. -/
def Diagnostic.interrupted : Diagnostic := ⟨.general, ⟨"keyboard interrupt", [], []⟩, false⟩

/-- The report of an evaluation that nests too deep. -/
def Diagnostic.nesting : Diagnostic :=
  ⟨.general, ⟨"maximum recursion depth exceeded", [], []⟩, false⟩

/-- The report of a failure that is not the program's. -/
def Diagnostic.unknown (name detail : String) : Diagnostic :=
  ⟨.general, ⟨"unknown error: '", [(name ++ ": " ++ detail, "'")], []⟩, true⟩

/-! ## The reporter -/

/-- A line of a file, with its number. -/
structure SourceLine where
  text : String
  number : Int
deriving DecidableEq, Repr

/-- Who reports, and about what: the files in the order they became known, each with the line that
is being worked on. -/
structure Reporter where
  style : Style
  fatal : Bool
  trace : List (String × Option SourceLine) := []

namespace Reporter

/-- Sets the line of a file, which takes the last place if it is new. -/
def place (r : Reporter) (path : String) (line : Option SourceLine) : Reporter :=
  if r.trace.any (·.1 == path) then
    { r with trace := r.trace.map fun entry => if entry.1 == path then (path, line) else entry }
  else { r with trace := r.trace ++ [(path, line)] }

/-- Makes a file known, with no line of it at work. -/
def addFile (r : Reporter) (path : String) : Reporter := r.place path none

/-- Notes that work on a line of a file starts. -/
def startLine (r : Reporter) (path text : String) (number : Int) : Reporter :=
  r.place path (some ⟨text, number⟩)

/-- Notes that work on the line of a file is done. -/
def finishLine (r : Reporter) (path : String) : Reporter := r.place path none

/-- Forgets the lines and keeps the files. -/
def forgetLines (r : Reporter) : Reporter :=
  { r with trace := r.trace.map fun entry => (entry.1, none) }

/-- The lines at work as the head of a report; an empty line is not shown. -/
def traceText (r : Reporter) : String :=
  String.join <| r.trace.map fun (path, line) =>
    match line with
    | some ⟨text, number⟩ =>
      if text.isEmpty then ""
      else "  File '" ++ path ++ "', line " ++ toString number ++ ":\n    " ++ text ++ "\n"
    | none => ""

/-- A message with its pieces set off in the reporter's style. -/
def shown (r : Reporter) (m : Message) : String := m.render (Style.bold · r.style)

/-- The whole report of a diagnostic. -/
def reportText (r : Reporter) (d : Diagnostic) : String :=
  r.traceText ++ (if d.internal then Style.boldIn .red "[internal] " r.style else "")
    ++ Style.boldIn .red "error: " r.style ++ r.shown d.message ++ "\n"

/-- A warning, which stops nothing. -/
def warningText (r : Reporter) (m : Message) : String :=
  Style.boldIn .magenta "warning: " r.style ++ r.shown m ++ "\n"

end Reporter

/-! ## Settling an incident -/

/-- How the work goes on after an incident. -/
inductive Fate where
  /-- The work goes on with the next piece. -/
  | resumed
  /-- The program ends with a status. -/
  | exited (status : Nat)
  /-- The incident goes on to whoever started the work. -/
  | passed
deriving DecidableEq, Repr

/-- The outcome of an incident: the reporter after it, what it printed, and how the work goes on. -/
structure Settlement where
  reporter : Reporter
  output : String
  fate : Fate

namespace Reporter

/-- **Reports a diagnostic**: a fatal reporter ends the program and keeps its lines, any other one
forgets them. -/
def report (r : Reporter) (d : Diagnostic) : Settlement :=
  if r.fatal then ⟨r, r.reportText d, .exited 1⟩ else ⟨r.forgetLines, r.reportText d, .resumed⟩

/-- **Settles an incident**: a departure passes in silence; a foreign failure is reported as
internal and passes on unless the report ends the program; all else is reported. -/
def settle (r : Reporter) : Incident → Settlement
  | .diagnostic d => r.report d
  | .tooDeep => r.report .nesting
  | .interrupt => r.report .interrupted
  | .departure => ⟨r, "", .passed⟩
  | .foreign name detail =>
    let settled := r.report (.unknown name detail)
    if settled.fate = .resumed then { settled with fate := .passed } else settled

end Reporter

end Lisplet
