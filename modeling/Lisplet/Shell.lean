import Lisplet.Session

/-!
# Shell — typed lines, one at a time

A line is a command or a piece of program.  A piece that is unfinished is held until the lines
after it finish it; the prompt tells the user which of the two is expected.  `Shell.step` is the
whole behaviour of one line.
-/

namespace Lisplet

/-- What the user is asked for. -/
inductive Prompt where
  /-- A new line. -/
  | fresh
  /-- The rest of a line that is held. -/
  | continuation
deriving DecidableEq, Repr

/-- The prompt as it is printed. -/
def Prompt.text : Prompt → String
  | .fresh => Colour.red.paint ">> "
  | .continuation => "... "

/-- What a typed line is. -/
inductive Command where
  /-- Nothing but blanks. -/
  | blank
  /-- A request for help. -/
  | help
  /-- A request to leave. -/
  | leave
  /-- The end of the input. -/
  | endOfInput
  /-- A piece of program. -/
  | program (text : String)
deriving DecidableEq, Repr

namespace Command

/-- Whether a character may stand in the name of a command. -/
def isNameChar (c : Char) : Bool := c.isAlpha || c.isDigit || c == '_'

/-- **What a typed line is**, the blanks around it put aside: a question mark asks for help, and so
do the names of commands when they are the longest run of letters, digits and underscores at the
front. -/
def ofLine (line : String) : Command :=
  let text := trim line
  match text.toList with
  | [] => .blank
  | '?' :: _ => .help
  | cs =>
    match String.ofList (cs.takeWhile isNameChar) with
    | "help" => .help
    | "exit" => .leave
    | "EOF" => .endOfInput
    | _ => .program text

end Command

/-- The state of the shell. -/
structure Shell where
  session : Session
  /-- The unfinished text, empty if there is none. -/
  held : String := ""
  prompt : Prompt := .fresh
  /-- The number of lines that were pieces of program. -/
  lineNumber : Nat := 0

namespace Shell

/-- The text that greets the user. -/
def intro : String :=
  "rlisp :: a minimal S-expression interpreter\n" ++
  "Type 'help' for more information, 'exit' or Ctrl-D to quit."

/-- The text that helps the user. -/
def helpText : String :=
  "Welcome to rlisp!\n\n" ++
  "Expressions are numbers, symbols and lists. A non-empty list is a procedure \n" ++
  "call: try '(+ 1 2 3)' or '(- 5 2)'. Procedures are made with lambda: \n" ++
  "'(lambda (x y) (- x y))' is a procedure of two arguments.\n\n" ++
  "Lists with unclosed parentheses continue on the next line."

/-- How the shell answers a line. -/
inductive Reply where
  /-- The line is dealt with. -/
  | handled
  /-- There was nothing to do. -/
  | idle
  /-- The shell is to stop. -/
  | leave
  /-- An incident could not be settled here. -/
  | broken (fate : Fate)
deriving DecidableEq, Repr

/-- What one line comes to. -/
structure Step where
  shell : Shell
  output : String
  reply : Reply

/-- The text that a piece of program makes with the held text in front of it. -/
def joined (s : Shell) (line : String) : String :=
  trimEnd (if s.held.isEmpty then line else s.held ++ " " ++ line)

/-- **Takes in a piece of program**: joined to the held text, it is held again if it is unfinished,
and evaluated as a whole if it is not. -/
def takeProgram (s : Shell) (line : String) : Step :=
  let number := s.lineNumber + 1
  let text := s.joined line
  if isUnfinished text then
    ⟨{ s with held := text, prompt := .continuation, lineNumber := number }, "", .handled⟩
  else
    let attempt := s.session.attempt text number
    let shell : Shell := ⟨attempt.session, "", .fresh, number⟩
    match attempt.fate with
    | .resumed =>
      ⟨shell, attempt.output ++ (attempt.printed.map (· ++ "\n")).getD "", .handled⟩
    | fate => ⟨shell, attempt.output, .broken fate⟩

/-- **Takes in a typed line.**  A blank line goes on with the held text if there is some. -/
def step (s : Shell) (line : String) : Step :=
  match Command.ofLine line with
  | .blank => if s.held.isEmpty then ⟨s, "", .idle⟩ else s.takeProgram ""
  | .help => ⟨s, helpText ++ "\n", .handled⟩
  | .leave => ⟨s, "", .leave⟩
  | .endOfInput => ⟨s, "\n", .leave⟩
  | .program text => s.takeProgram text

end Shell

end Lisplet
