import Lisplet.Report
import Lisplet.Session.Entry
import Lisplet.Text.Lines
import Lisplet.Text.Utf8

/-!
# Session — evaluating lines one after another

A session evaluates every line in the same scope and keeps the results that nobody has taken yet.
Its lines are typed, or they are the entries of a file.  While a line is evaluated the reporter
knows of it; once the line has a value the reporter forgets it, so that a fault names exactly the
line it arose on.
-/

namespace Lisplet

/-- An evaluated line: the expression it held and its value. -/
structure Evaluated where
  expr : Expr
  value : Expr

/-- The state of a session. -/
structure Session where
  /-- The file of the lines, as reports name it. -/
  path : String
  /-- Where every line is evaluated. -/
  scope : Scope
  /-- Whether results show the expression as well. -/
  showTree : Bool
  /-- Who is told about faults. -/
  reporter : Reporter
  /-- The results that are not taken yet, the newest first. -/
  results : List Evaluated := []
  /-- The entries that are not evaluated yet. -/
  waiting : List Entry := []

/-- The path that stands for typed input. -/
def typedPath : String := "<in>"

namespace Session

/-! ## Starting -/

/-- **A session for typed lines**, whose reporter is never fatal. -/
def typed (reporter : Reporter) (scope : Scope) (showTree : Bool) : Session where
  path := typedPath
  scope := scope
  showTree := showTree
  reporter := { reporter.addFile typedPath with fatal := false }

/-- The entries in the bytes of the file at a path, which must not end inside an entry. -/
def entriesOf (path : String) (bytes : List UInt8) : Except Incident (List Entry) :=
  match Utf8.decode bytes with
  | .error fault => .error (.foreign "UnicodeDecodeError" fault.text)
  | .ok cs =>
    match (Gathering.mk [] false).feedAll 1 (fileLines cs) with
    | some g => if g.unfinished then .error (Fault.unfinished path).incident else .ok g.inOrder
    | none => .error (.foreign "IndexError" "pop from empty list")

/-- The entries of the file at a path; `bytes` are those of the file, if it can be read. -/
def load (path : String) (bytes : Option (List UInt8)) : Except Incident (List Entry) :=
  if path.toList.contains '\x00' then .error (.foreign "ValueError" "embedded null byte")
  else match bytes with
    | none => .error (Fault.cannotOpen path).incident
    | some bytes => entriesOf path bytes

/-- **A session for the file at a path.**  It may be told to treat the file as typed; only then may
the path be the one that stands for typed input, and no file is read for it. -/
def ofFile (reporter : Reporter) (path : String) (bytes : Option (List UInt8))
    (asTyped showTree : Bool) : Except Incident Session :=
  let reporter := reporter.addFile path
  let start : Session :=
    { path, scope := .standard, showTree
      reporter := if asTyped then { reporter with fatal := false } else reporter }
  if path = typedPath then
    if asTyped then .ok start else .error Fault.reserved.incident
  else match load path bytes with
    | .error incident => .error incident
    | .ok entries => .ok { start with waiting := entries }

/-! ## Lines and results -/

/-- **Evaluates a line and keeps the result.**  A line without a value leaves the results as they
were, and the reporter keeps it in mind. -/
def add (s : Session) (line : String) (number : Int) : Outcome Expr × Session :=
  let started := { s with reporter := s.reporter.startLine s.path line number }
  match s.scope.run line with
  | .error halt => (.error halt, started)
  | .ok (expr, value) =>
    (.ok value,
      { started with
        results := ⟨expr, value⟩ :: s.results
        reporter := started.reporter.finishLine s.path })

/-- A result as it is printed. -/
def shown (s : Session) (r : Evaluated) : String :=
  if s.showTree then "Parse Tree:\n" ++ r.expr.outline 1 ++ "\n" ++ r.value.source
  else r.value.source

/-- **Takes the newest result**, as it is printed. -/
def pop (s : Session) : Option (String × Session) :=
  match s.results with
  | [] => none
  | newest :: older => some (s.shown newest, { s with results := older })

/-! ## Guarded evaluation -/

/-- What a guarded evaluation comes to: the session after it, what the reporter printed, the result
if there is one, and how the work goes on. -/
structure Attempt where
  session : Session
  output : String
  printed : Option String
  fate : Fate

/-- Lets the reporter settle an incident. -/
def settle (s : Session) (incident : Incident) : Attempt :=
  let settled := s.reporter.settle incident
  ⟨{ s with reporter := settled.reporter }, settled.output, none, settled.fate⟩

/-- **Evaluates a line and takes its result**; the reporter settles it if there is none. -/
def attempt (s : Session) (line : String) (number : Int) : Attempt :=
  match s.add line number with
  | (.error halt, s) => s.settle halt.incident
  | (.ok _, s) =>
    match s.pop with
    | some (printed, s) => ⟨s, "", some printed, .resumed⟩
    | none => ⟨s, "", none, .resumed⟩

/-! ## Running a file -/

/-- What running entries comes to: the results in order, why it stopped early if it did, and the
session after it. -/
structure Run where
  printed : List String
  halt : Option Halt
  session : Session

/-- Evaluates entries in order up to the first without a value; the entry itself is no longer
waiting. -/
def runEntries (s : Session) : List Entry → Run
  | [] => ⟨[], none, { s with waiting := [] }⟩
  | entry :: rest =>
    match { s with waiting := rest }.add entry.text entry.number with
    | (.error halt, s) => ⟨[], some halt, s⟩
    | (.ok _, s) =>
      match s.pop with
      | some (printed, s) =>
        let run := runEntries s rest
        { run with printed := printed :: run.printed }
      | none => runEntries s rest

/-- **Evaluates the waiting entries** up to the first without a value. -/
def run (s : Session) : Run := s.runEntries s.waiting

end Session

end Lisplet
