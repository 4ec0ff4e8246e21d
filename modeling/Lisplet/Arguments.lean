import Lisplet.Text.Digit
import Lisplet.Text.Lines
import Lisplet.Text.Quoted

/-!
# Arguments — reading the command line

An argument is an option, an operand, or the separator after which everything is an operand.  Long
options may be shortened as long as one option is meant, take their value after an equals sign or
from the next argument, and short ones may share a dash.  First every argument is classified, then
they are taken in from left to right.
-/

namespace Lisplet

/-- What the command line says about the line history. -/
inductive HistoryChoice where
  /-- Nothing. -/
  | unsaid
  /-- The option is given with the separator in place of a value, and so has none. -/
  | valueless
  /-- The path of its file. -/
  | file (path : String)
deriving DecidableEq, Repr

/-- The path that is chosen, if one is. -/
def HistoryChoice.path? : HistoryChoice → Option String
  | .file path => some path
  | .unsaid | .valueless => none

/-- What the command line asks for. -/
structure Arguments where
  /-- The file to run; none asks for typed input. -/
  file : Option String := none
  /-- Whether to show expressions before their values. -/
  tree : Bool := false
  /-- The line history to use. -/
  history : HistoryChoice := .unsaid
deriving DecidableEq, Repr

namespace Arguments

/-- The options. -/
inductive Flag where
  | help
  | tree
  | history
deriving DecidableEq, Repr

/-- The spellings of the options, in the order in which they are listed. -/
def spellings : List (String × Flag) :=
  [("-h", .help), ("--help", .help), ("--tree", .tree), ("--histfile", .history)]

/-- An option as messages name it. -/
def Flag.name : Flag → String
  | .help => "-h/--help"
  | .tree => "--tree"
  | .history => "--histfile"

/-- What an argument is. -/
inductive Argument where
  | operand (text : String)
  | separator
  /-- An option, by a long or a short spelling, perhaps with something attached after an equals
  sign or right after the letter of a short one. -/
  | option (flag : Flag) (short : Bool) (attached : Option (List Char))
  /-- It looks like an option and is none. -/
  | unknown (text : String)
deriving DecidableEq, Repr

/-- Why a command line is refused. -/
inductive Refusal where
  /-- An argument shortens more than one option. -/
  | ambiguous (argument : String) (candidates : List String)
  /-- An option lacks its value. -/
  | needsValue (flag : Flag)
  /-- An option is given a value and takes none. -/
  | takesNoValue (flag : Flag) (value : List Char)
  /-- No one wants these arguments. -/
  | unrecognized (arguments : List String)
deriving DecidableEq, Repr

/-- The wording of a refusal. -/
def Refusal.text : Refusal → String
  | .ambiguous argument candidates =>
    "ambiguous option: " ++ argument ++ " could match " ++ ", ".intercalate candidates
  | .needsValue flag => "argument " ++ flag.name ++ ": expected one argument"
  | .takesNoValue flag value =>
    "argument " ++ flag.name ++ ": ignored explicit argument " ++ quote (String.ofList value)
  | .unrecognized arguments => "unrecognized arguments: " ++ " ".intercalate arguments

/-! ## Classification -/

/-- Whether a text reads as a negative number: a minus sign and digits, perhaps with a point among
or before them; a line feed at the end does not count. -/
def isNegativeNumber : List Char → Bool
  | '-' :: cs =>
    let cs := if cs.getLast? = some '\n' then cs.dropLast else cs
    let whole := cs.takeWhile isAnyDigit
    match cs.dropWhile isAnyDigit with
    | [] => !whole.isEmpty
    | '.' :: places => !places.isEmpty && places.all isAnyDigit
    | _ => false
  | _ => false

/-- The parts of a text before and after its first equals sign, if it has one. -/
def splitEquals (cs : List Char) : List Char × Option (List Char) :=
  match cs.dropWhile (· ≠ '=') with
  | [] => (cs, none)
  | _ :: value => (cs.takeWhile (· ≠ '='), some value)

/-- The spellings that a long option may be short for. -/
def candidates (stem : List Char) : List (String × Flag) :=
  spellings.filter fun (spelling, _) => stem.isPrefixOf spelling.toList

/-- An argument that starts with a dash and is no option: a negative number and a text with a space
are operands. -/
def classifyOther (text : String) : Argument :=
  if isNegativeNumber text.toList || text.toList.contains ' ' then .operand text else .unknown text

/-- **What an argument is** that comes before any separator. -/
def classify (text : String) : Except Refusal Argument :=
  match text.toList with
  | [] | ['-'] => .ok (.operand text)
  | '-' :: second :: rest =>
    let (stem, value) := splitEquals ('-' :: second :: rest)
    match spellings.lookup text, spellings.lookup (String.ofList stem), value with
    | some flag, _, _ => .ok (.option flag (second ≠ '-') none)
    | none, some flag, some value => .ok (.option flag (second ≠ '-') (some value))
    | none, _, value =>
      if second = '-' then
        match candidates stem with
        | [] => .ok (classifyOther text)
        | [(_, flag)] => .ok (.option flag false value)
        | several => .error (.ambiguous text (several.map (·.1)))
      else match spellings.lookup (String.ofList ['-', second]) with
        | some flag => .ok (.option flag true (some rest))
        | none => .ok (classifyOther text)
  | _ => .ok (.operand text)

/-- **What the arguments are**; after the separator all are operands. -/
def classifyAll : List String → Except Refusal (List Argument)
  | [] => .ok []
  | text :: rest =>
    if text == "--" then .ok (.separator :: rest.map .operand)
    else match classify text with
      | .error refusal => .error refusal
      | .ok argument => (classifyAll rest).map (argument :: ·)

/-! ## Taking arguments in -/

/-- Whether an operand can still become the file. -/
inductive Slot where
  | free
  /-- The argument just before became the file. -/
  | filled
  | past
deriving DecidableEq, Repr

/-- What has been taken in so far. -/
structure Taken where
  arguments : Arguments := {}
  slot : Slot := .free
  /-- The arguments that no one wants. -/
  extras : List String := []
deriving DecidableEq, Repr

/-- What reading the command line comes to, unless it is refused. -/
inductive Request where
  | help
  | run (arguments : Arguments)
deriving DecidableEq, Repr

namespace Taken

/-- After an argument that is no operand, the file is no longer the argument just before. -/
def moveOn (t : Taken) : Taken := { t with slot := if t.slot = .free then .free else .past }

/-- An argument that no one wants. -/
def refuse (t : Taken) (text : String) : Taken := { t.moveOn with extras := t.extras ++ [text] }

/-- An operand becomes the file if none is one yet. -/
def operand (t : Taken) (text : String) : Taken :=
  if t.slot = .free then
    { t with arguments := { t.arguments with file := some text }, slot := .filled }
  else t.refuse text

/-- The separator counts for nothing before the file and right after it. -/
def separator (t : Taken) : Taken := if t.slot = .past then t.refuse "--" else t.moveOn

end Taken

/-- A request for help, with what is attached to it: after its letter more requests for help may
share the dash, and all else would be a value. -/
def takeHelp (short : Bool) : Option (List Char) → Except Refusal Request
  | none => .ok .help
  | some value =>
    let unread := if short then value.dropWhile (· = 'h') else value
    if unread.isEmpty && !value.isEmpty then .ok .help else .error (.takesNoValue .help unread)

/-- The choice of a history by a value attached to its option. -/
def chosenHistory (value : List Char) : HistoryChoice :=
  if value = ['-', '-'] then .valueless else .file (String.ofList value)

/-- **Takes arguments in from left to right.** -/
def take (t : Taken) : List Argument → Except Refusal Request
  | [] => if t.extras.isEmpty then .ok (.run t.arguments) else .error (.unrecognized t.extras)
  | .operand text :: rest => take (t.operand text) rest
  | .separator :: rest => take t.separator rest
  | .unknown text :: rest => take (t.refuse text) rest
  | .option .help short attached :: _ => takeHelp short attached
  | .option .tree _ none :: rest =>
    take { t.moveOn with arguments := { t.arguments with tree := true } } rest
  | .option .tree _ (some value) :: _ => .error (.takesNoValue .tree value)
  | .option .history _ (some value) :: rest =>
    take { t.moveOn with arguments := { t.arguments with history := chosenHistory value } } rest
  | .option .history _ none :: .operand value :: rest =>
    take { t.moveOn with arguments := { t.arguments with history := .file value } } rest
  | .option .history _ none :: _ => .error (.needsValue .history)

/-- **Reads a command line.** -/
def read (argv : List String) : Except Refusal Request :=
  match classifyAll argv with
  | .error refusal => .error refusal
  | .ok arguments => take {} arguments

/-! ## Texts -/

/-- The line that shows how the program is called. -/
def usage : String := "usage: rlisp [-h] [--tree] [--histfile HISTFILE] [file]\n"

/-- What is printed for a command line that is refused. -/
def refusalText (refusal : Refusal) : String := usage ++ "rlisp: error: " ++ refusal.text ++ "\n"

/-- What is printed on a request for help. -/
def helpText : String :=
  usage ++ "\n" ++
  "Minimal S-expression interpreter.\n" ++
  "\n" ++
  "positional arguments:\n" ++
  "  file                 file to interpret and run (if empty, goes to command-\n" ++
  "                       line mode)\n" ++
  "\n" ++
  "options:\n" ++
  "  -h, --help           show this help message and exit\n" ++
  "  --tree               print the parse tree of each line before its value\n" ++
  "  --histfile HISTFILE  command-line history file (default: $RLISP_HISTFILE or\n" ++
  "                       the user cache directory)\n"

end Arguments

end Lisplet
