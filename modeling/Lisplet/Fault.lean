import Lisplet.Expr.Printer
import Lisplet.Message

/-!
# Fault — what can be wrong with a program

Every way in which reading, evaluating or loading a program fails is one constructor with the parts
of the program it blames.  `Fault.kind` sorts faults into a family of kinds, each below a more
general one, and `Fault.message` words them.
-/

namespace Lisplet

/-- The kinds of faults. -/
inductive Kind where
  /-- Any fault at all. -/
  | general
  /-- The text does not divide into tokens. -/
  | lexical
  /-- The tokens do not form an expression. -/
  | syntactic
  /-- An expression has no value. -/
  | evaluation
  /-- A name means nothing where it is used. -/
  | unbound
  /-- A procedure is given the wrong number of arguments. -/
  | arity
  /-- A procedure is given an argument of the wrong sort. -/
  | argument
  /-- What is applied is not a procedure. -/
  | uncallable
deriving DecidableEq, Repr

namespace Kind

/-- The next more general kind. -/
def parent : Kind → Option Kind
  | .general => none
  | .lexical | .syntactic | .evaluation => some .general
  | .unbound | .arity | .argument | .uncallable => some .evaluation

/-- A kind and all the kinds above it, the most general last. -/
def lineage : Kind → List Kind
  | .general => [.general]
  | .lexical => [.lexical, .general]
  | .syntactic => [.syntactic, .general]
  | .evaluation => [.evaluation, .general]
  | .unbound => [.unbound, .evaluation, .general]
  | .arity => [.arity, .evaluation, .general]
  | .argument => [.argument, .evaluation, .general]
  | .uncallable => [.uncallable, .evaluation, .general]

/-- A lineage climbs from parent to parent. -/
theorem lineage_eq (k : Kind) :
    k.lineage = k :: (k.parent.map lineage).getD [] := by cases k <;> rfl

end Kind

/-- Why a program cannot be read, evaluated or loaded. -/
inductive Fault where
  /-- A string breaks off after a backslash; `rest` is the text from its opening quote. -/
  | brokenEscape (rest : String)
  /-- A string is never closed; `rest` is the text from its opening quote. -/
  | openString (rest : String)
  /-- A numeral is beyond the largest number. -/
  | numeralRange (numeral : String)
  /-- The tokens end inside a list. -/
  | openList
  /-- A list is closed that was never opened. -/
  | strayClose
  /-- A string stands where an expression should. -/
  | stringToken (value : String)
  /-- The end of the text is among the tokens. -/
  | finishToken
  /-- Tokens follow a complete expression. -/
  | leftover
  /-- No frame binds the name. -/
  | unbound (name : String)
  /-- A procedure called `name` takes `expected` arguments and is given `actual`. -/
  | arity (name : String) (expected actual : Nat)
  /-- The procedure called `name` adds or subtracts numbers, and `value` is none. -/
  | notNumber (name : String) (value : Expr)
  /-- The parameters of a `lambda` are no list. -/
  | notParameters (given : Expr)
  /-- A parameter of a `lambda` is no symbol. -/
  | notParameter (given : Expr)
  /-- What stands first in a list names no procedure, not being a symbol. -/
  | notName (head : Expr)
  /-- What stands first in a list names something else than a procedure. -/
  | notProcedure (head value : Expr)
  /-- The result of the procedure called `name` is no finite number. -/
  | resultRange (name : String)
  /-- The file cannot be opened for reading. -/
  | cannotOpen (path : String)
  /-- The file ends before all its lists are closed. -/
  | unfinished (path : String)
  /-- The path is the one that stands for typed input. -/
  | reserved

namespace Fault

/-- The kind of a fault. -/
def kind : Fault → Kind
  | .brokenEscape _ | .openString _ | .numeralRange _ => .lexical
  | .openList | .strayClose | .stringToken _ | .finishToken | .leftover => .syntactic
  | .unbound _ => .unbound
  | .arity .. => .arity
  | .notNumber .. | .notParameters _ | .notParameter _ => .argument
  | .notName _ | .notProcedure .. => .uncallable
  | .resultRange _ => .evaluation
  | .cannotOpen _ | .unfinished _ | .reserved => .general

/-- The wording of a wrong number of arguments. -/
def arityMessage (name : String) (expected actual : Int) : Message :=
  ⟨"procedure '", [(name, "' expects "), (toString expected, " argument(s), got "),
    (toString actual, "")], []⟩

/-- **What a fault is called.** -/
def message : Fault → Message
  | .brokenEscape rest => ⟨"unterminated escape sequence in ", [(rest, "")], []⟩
  | .openString rest => ⟨"unterminated string literal ", [(rest, "")], []⟩
  | .numeralRange numeral => ⟨"number literal out of range: ", [(numeral, "")], []⟩
  | .openList => ⟨"expected list closing", [], []⟩
  | .strayClose => ⟨"unexpected list closing", [], []⟩
  | .stringToken value => ⟨"unsupported token type: string literal ", [(quote value, "")], []⟩
  | .finishToken => ⟨"unsupported token type: ", [("EOF", "")], []⟩
  | .leftover => ⟨"failed to parse all of input", [], []⟩
  | .unbound name => ⟨"symbol not found: ", [(name, "")], []⟩
  | .arity name expected actual => arityMessage name expected actual
  | .notNumber name value => ⟨"'", [(name, "' expects numbers, got '"), (value.source, "'")], []⟩
  | .notParameters given => ⟨"lambda parameters must be a list, got '", [(given.source, "'")], []⟩
  | .notParameter given => ⟨"parameters must be symbols, got '", [(given.source, "'")], []⟩
  | .notName head => ⟨"expected a function/procedure name, got '", [(head.source, "'")], []⟩
  | .notProcedure head value =>
    ⟨"expected a function/procedure name, got '",
      [(head.source, "' bound to '"), (value.source, "'")], []⟩
  | .resultRange name => ⟨"'", [(name, "' result out of range")], []⟩
  | .cannotOpen path => ⟨"'", [(path, "' could not be opened")], []⟩
  | .unfinished path => ⟨"'", [(path, "' ends inside an unclosed list")], []⟩
  | .reserved => ⟨"'<in>' is a reserved filename", [], []⟩

end Fault

end Lisplet
