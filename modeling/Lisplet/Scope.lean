import Lisplet.Fault

/-!
# Scope — what names mean

A scope is a chain of frames.  Evaluation never changes a scope: a call puts one more frame in
front of the chain that its procedure was made in.
-/

namespace Lisplet

namespace Primitive

/-- The name that a primitive has at the start. -/
def name : Primitive → String
  | .add => "+"
  | .subtract => "-"
  | .abstract => "lambda"

/-- The primitive that has a name at the start. -/
def ofName? : String → Option Primitive
  | "+" => some .add
  | "-" => some .subtract
  | "lambda" => some .abstract
  | _ => none

theorem ofName?_name (p : Primitive) : ofName? p.name = some p := by cases p <;> rfl

end Primitive

/-- The frame of bindings in the order they are made, so that of two for one name the later
counts. -/
def Frame.ofBindings (bindings : List (String × Expr)) : Frame := bindings.reverse

/-- The names that a frame binds, each once, by code points. -/
def Frame.names (frame : Frame) : List String :=
  (frame.map (·.1)).eraseDups.mergeSort fun a b => decide (a ≤ b)

namespace Scope

/-- The value of a name in the innermost frame that binds it. -/
def find? (name : String) : Scope → Option Expr
  | [] => none
  | frame :: outer =>
    match frame.lookup name with
    | some value => some value
    | none => find? name outer

/-- **The value of a name**, which some frame has to bind. -/
def lookup (scope : Scope) (name : String) : Except Fault Expr :=
  match scope.find? name with
  | some value => .ok value
  | none => .error (.unbound name)

/-- Whether some frame binds a name. -/
def binds (scope : Scope) (name : String) : Bool := (scope.find? name).isSome

/-- The scope with one more frame inside it. -/
def extend (scope : Scope) (bindings : List (String × Expr)) : Scope :=
  Frame.ofBindings bindings :: scope

/-- **The scope that programs start in**: one frame with the three primitives. -/
def standard : Scope :=
  extend [] ([Primitive.add, .subtract, .abstract].map fun p => (p.name, .builtin p.name p))

/-- The label of a scope: the names of its innermost frame and the number of frames around it; no
scope has no label. -/
def label : Scope → Option String
  | [] => none
  | frame :: outer =>
    some ("Environment(" ++ quoteList (Frame.names frame) ++ ", depth=" ++ toString outer.length
      ++ ")")

end Scope

end Lisplet
