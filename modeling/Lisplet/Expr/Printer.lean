import Lisplet.Expr
import Lisplet.Number
import Lisplet.Text.Quoted

/-!
# Expr/Printer — three written forms of an expression

`source` is the form that the language reads, `label` names every node on one line, and `outline`
spreads the same names over lines, each element indented below its list.
-/

namespace Lisplet.Expr

mutual

/-- **The source form**: numbers and symbols as they are read, lists in parentheses. -/
def source : Expr → String
  | .number x => numberText x
  | .symbol name => name
  | .list es => "(" ++ " ".intercalate (sources es) ++ ")"
  | .lambda ps body _ => "(lambda (" ++ " ".intercalate ps ++ ") " ++ source body ++ ")"
  | .builtin name _ => "#<builtin " ++ name ++ ">"

/-- The source forms of the elements of a list. -/
def sources : List Expr → List String
  | [] => []
  | e :: es => source e :: sources es

end

mutual

/-- **The label**: the kind of every node, with its parts in parentheses. -/
def label : Expr → String
  | .number x => "Number(" ++ numberText x ++ ")"
  | .symbol name => "Symbol(" ++ name ++ ")"
  | .list es => "List(" ++ ", ".intercalate (labels es) ++ ")"
  | .lambda ps body _ => "Lambda(params=" ++ quoteList ps ++ ", body=" ++ label body ++ ")"
  | .builtin name _ => "Builtin(" ++ name ++ ")"

/-- The labels of the elements of a list. -/
def labels : List Expr → List String
  | [] => []
  | e :: es => label e :: labels es

end

/-- The blank margin of an outline at a depth: four blanks a step, and none left of the edge. -/
def margin (depth : Int) : String := String.ofList (List.replicate (4 * depth.toNat) ' ')

mutual

/-- **The outline at a depth**: a list with elements takes one line for its head, lines for each
element a step deeper, and one line for its end; all else is the label on one line. -/
def outline (depth : Int) : Expr → String
  | .list (e :: es) =>
    margin depth ++ "List(\n" ++
      ",\n".intercalate (outline (depth + 1) e :: outlines (depth + 1) es) ++
      "\n" ++ margin depth ++ ")"
  | e => margin depth ++ label e

/-- The outlines of the elements of a list. -/
def outlines (depth : Int) : List Expr → List String
  | [] => []
  | e :: es => outline depth e :: outlines depth es

end

/-! ## The forms of the elements, as maps -/

@[simp] theorem sources_eq_map (es : List Expr) : sources es = es.map source := by
  induction es with
  | nil => rfl
  | cons e es ih => simp [sources, ih]

@[simp] theorem labels_eq_map (es : List Expr) : labels es = es.map label := by
  induction es with
  | nil => rfl
  | cons e es ih => simp [labels, ih]

@[simp] theorem outlines_eq_map (depth : Int) (es : List Expr) :
    outlines depth es = es.map (outline depth) := by
  induction es with
  | nil => rfl
  | cons e es ih => simp [outlines, ih]

/-! ## The label of every kind of node -/

theorem label_number (x : Float) : label (.number x) = "Number(" ++ numberText x ++ ")" := rfl

theorem label_symbol (name : String) : label (.symbol name) = "Symbol(" ++ name ++ ")" := rfl

theorem label_list (es : List Expr) :
    label (.list es) = "List(" ++ ", ".intercalate (es.map label) ++ ")" := by
  rw [← labels_eq_map]
  rfl

theorem label_lambda (ps : List String) (body : Expr) (captured : Scope) :
    label (.lambda ps body captured) =
      "Lambda(params=" ++ quoteList ps ++ ", body=" ++ label body ++ ")" := rfl

theorem label_builtin (name : String) (primitive : Primitive) :
    label (.builtin name primitive) = "Builtin(" ++ name ++ ")" := rfl

end Lisplet.Expr
