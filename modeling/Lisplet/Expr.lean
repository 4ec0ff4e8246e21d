/-!
# Expr — expressions, which are also the values

The language is its own data: what the parser reads and what evaluation returns are expressions of
one type.  The parser makes numbers, symbols and lists; procedures arise only from evaluation, a
`lambda` carrying the scope it was made in.
-/

namespace Lisplet

/-- The three procedures that the language starts with. -/
inductive Primitive where
  /-- The sum of any number of numbers. -/
  | add
  /-- The first number minus the second. -/
  | subtract
  /-- A procedure from a list of parameters and a body. -/
  | abstract
deriving DecidableEq, Repr

/-- An expression, or the value of one.  A `lambda` captures a chain of frames, the innermost
first, each a list of bindings; the empty chain is no scope at all. -/
inductive Expr where
  | number (value : Float)
  | symbol (name : String)
  | list (elements : List Expr)
  | lambda (parameters : List String) (body : Expr) (captured : List (List (String × Expr)))
  | builtin (name : String) (primitive : Primitive)

/-- The bindings that one call or one definition adds, the newest first. -/
abbrev Frame := List (String × Expr)

/-- A chain of frames, the innermost first; a name means what the first frame that binds it says.
The empty chain is no scope at all. -/
abbrev Scope := List Frame

instance : Inhabited Expr := ⟨.list []⟩

namespace Expr

/-! ## Equality

Two expressions are equal when they are written alike: the scope of a `lambda` and the primitive
behind a builtin do not count, and the two zeros are one number. -/

mutual

/-- Equality of expressions as programs see them. -/
def beq : Expr → Expr → Bool
  | .number x, .number y => x == y
  | .symbol a, .symbol b => a == b
  | .list xs, .list ys => beqList xs ys
  | .lambda ps body _, .lambda qs body' _ => ps == qs && beq body body'
  | .builtin a _, .builtin b _ => a == b
  | _, _ => false

/-- Equality of two rows of expressions, element by element. -/
def beqList : List Expr → List Expr → Bool
  | [], [] => true
  | x :: xs, y :: ys => beq x y && beqList xs ys
  | _, _ => false

end

instance : BEq Expr := ⟨beq⟩

/-- **Which expressions of a row are equal**, a line for each of them.  An expression is the same
as itself even where a number in it is undefined and equals nothing. -/
def equalities (es : List Expr) : List (List Bool) :=
  es.mapIdx fun i a => es.mapIdx fun j b => i == j || a == b

end Expr

end Lisplet
