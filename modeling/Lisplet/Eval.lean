import Lisplet.Expr.Parser
import Lisplet.Scope

/-!
# Eval — the value of an expression

Numbers, procedures and the empty list are their own values, a symbol has the value that the scope
gives it, and any other list applies the procedure that its first element names.  Evaluation nests,
and how deep it may nest is a limit: an evaluation that would go deeper halts without an answer,
which is neither a value nor a fault.
-/

namespace Lisplet

/-- How an evaluation ends without a value. -/
inductive Halt where
  /-- The program is at fault. -/
  | fault (fault : Fault)
  /-- The evaluation nests deeper than the limit. -/
  | tooDeep

/-- What an evaluation comes to. -/
abbrev Outcome (α : Type) := Except Halt α

/-- A computation that can be at fault but cannot nest. -/
def Outcome.ofFaulty {α : Type} : Except Fault α → Outcome α
  | .ok a => .ok a
  | .error fault => .error (.fault fault)

/-- Fails with a fault. -/
def Outcome.fail {α : Type} (fault : Fault) : Outcome α := .error (.fault fault)

/-- Refuses a number of arguments other than the expected one. -/
def checkArity (name : String) (expected actual : Nat) : Outcome Unit :=
  if actual = expected then .ok () else .fail (.arity name expected actual)

/-! ## Primitives

A primitive receives its arguments as they are written and evaluates those it needs, by `eval`, in
the scope it is called in. -/

namespace Primitive

/-- The value of an argument, which has to be a number. -/
def numberOf (name : String) (eval : Expr → Outcome Expr) (arg : Expr) : Outcome Float := do
  match ← eval arg with
  | .number x => pure x
  | value => .fail (.notNumber name value)

/-- A number that is neither infinite nor undefined. -/
def finite (name : String) (x : Float) : Outcome Expr :=
  if x.isFinite then .ok (.number x) else .fail (.resultRange name)

/-- The running total with the values of more arguments added, from left to right. -/
def total (name : String) (eval : Expr → Outcome Expr) (sum : Float) : List Expr → Outcome Float
  | [] => .ok sum
  | arg :: args => do
    let x ← numberOf name eval arg
    total name eval (sum + x) args

/-- The names of the parameters of a `lambda`, all of which have to be symbols. -/
def parameterNames : List Expr → Outcome (List String)
  | [] => .ok []
  | .symbol name :: rest => do
    let names ← parameterNames rest
    pure (name :: names)
  | other :: _ => .fail (.notParameter other)

/-- **Calls a primitive** by the name it goes under, with unevaluated arguments. -/
def call (eval : Expr → Outcome Expr) (scope : Scope) (name : String) :
    Primitive → List Expr → Outcome Expr
  | .add, args => do
    let sum ← total name eval 0 args
    finite name sum
  | .subtract, args =>
    match args with
    | [first, second] => do
      let x ← numberOf name eval first
      let y ← numberOf name eval second
      finite name (x - y)
    | _ => .fail (.arity name 2 args.length)
  | .abstract, args =>
    match args with
    | [.list parameters, body] => do
      let names ← parameterNames parameters
      pure (.lambda names body scope)
    | [other, _] => .fail (.notParameters other)
    | _ => .fail (.arity name 2 args.length)

end Primitive

/-! ## Application and evaluation -/

/-- The values of arguments, from left to right. -/
def evalAll (eval : Expr → Outcome Expr) : List Expr → Outcome (List Expr)
  | [] => .ok []
  | arg :: args => do
    let value ← eval arg
    let values ← evalAll eval args
    pure (value :: values)

/-- **Applies a `lambda` to values**: its body is evaluated with the values bound to its parameters
in front of the scope it captured, or of the calling scope if it captured none. -/
def applyLambda (eval : Expr → Scope → Outcome Expr) (name : String) (parameters : List String)
    (body : Expr) (captured : Scope) (values : List Expr) (calling : Scope) : Outcome Expr := do
  checkArity name parameters.length values.length
  let home := if captured.isEmpty then calling else captured
  eval body (home.extend (parameters.zip values))

/-- **The value of an expression in a scope**, with at most `limit` evaluations inside one
another. -/
def evaluate : Nat → Expr → Scope → Outcome Expr
  | 0, _, _ => .error .tooDeep
  | limit + 1, expr, scope =>
    match expr with
    | .symbol name => .ofFaulty (scope.lookup name)
    | .list [] => .ok (.list [])
    | .list (.symbol name :: args) => do
      match ← Outcome.ofFaulty (scope.lookup name) with
      | .builtin known primitive =>
        primitive.call (fun arg => evaluate limit arg scope) scope known args
      | .lambda parameters body captured => do
        checkArity name parameters.length args.length
        let values ← evalAll (fun arg => evaluate limit arg scope) args
        applyLambda (evaluate limit) name parameters body captured values scope
      | value => .fail (.notProcedure (.symbol name) value)
    | .list (head :: _) => .fail (.notName head)
    | value => .ok value

/-- How deep the evaluations of a program may nest.  It stands for the recursion limit of the host,
which counts every call that is under way and bounds reading and writing too; only evaluations
inside one another are counted here. -/
def depthLimit : Nat := 1000

/-- **Reads a source and evaluates it**: the expression and its value. -/
def Scope.run (scope : Scope) (source : String) : Outcome (Expr × Expr) := do
  let expr ← Outcome.ofFaulty (Expr.ofSource source)
  let value ← evaluate depthLimit expr scope
  pure (expr, value)

/-! ## Definitions -/

/-- The bindings of names to the values of sources, all in the same scope. -/
def Scope.bindings (scope : Scope) : List (String × String) → Outcome (List (String × Expr))
  | [] => .ok []
  | (name, source) :: rest => do
    let (_, value) ← scope.run source
    let bound ← scope.bindings rest
    pure ((name, value) :: bound)

/-- The scope with the values of sources bound in one new frame, none seeing another. -/
def Scope.define (scope : Scope) (definitions : List (String × String)) : Outcome Scope := do
  let bound ← scope.bindings definitions
  pure (scope.extend bound)

/-- The scope with the value of each source bound in a frame of its own, each seeing those before
it. -/
def Scope.defineEach (scope : Scope) : List (String × String) → Outcome Scope
  | [] => .ok scope
  | (name, source) :: rest => do
    let (_, value) ← scope.run source
    Scope.defineEach (scope.extend [(name, value)]) rest

end Lisplet
