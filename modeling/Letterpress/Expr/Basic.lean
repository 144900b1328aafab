import Letterpress.Value.Operators

/-!
Expressions as trees, and the headers of loops. `a.b` and `a["b"]` are the same tree.
-/

namespace Letterpress

inductive Expr where
  | literal (value : Value)
  | var (name : String)
  | member (base key : Expr)
  | neg (operand : Expr)
  | not (operand : Expr)
  | and (left right : Expr)
  | or (left right : Expr)
  | binary (operator : BinaryOperator) (left right : Expr)

/-- One variable, or two for position and item, and what the loop runs over. -/
structure LoopHeader where
  names : List String
  iterable : Expr

/-- Words that name no variable; after a point they are ordinary names. -/
def Expr.reserved : List String := ["and", "or", "not", "true", "false", "null", "undefined"]

end Letterpress
