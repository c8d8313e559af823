/-
# Arithmetic expressions

Numbers, variables, properties of entities, a sign and four operators.  An expression prints
with parentheses around every operation, so its text leaves nothing to precedence.
-/
import StageScript.Decimal.Layout

namespace StageScript

/-- The operators between two operands. -/
inductive Operator where
  | add
  | sub
  | mul
  | div
  deriving DecidableEq, Repr

namespace Operator

/-- The character of an operator. -/
def symbol : Operator → String
  | add => "+"
  | sub => "-"
  | mul => "*"
  | div => "/"

/-- What an operator computes. -/
def apply : Operator → Float → Float → Float
  | add, x, y => x + y
  | sub, x, y => x - y
  | mul, x, y => x * y
  | div, x, y => x / y

end Operator

/-- An expression. -/
inductive Expr where
  | number (value : Float)
  | var (name : String)
  | property (entity prop : String)
  | neg (inner : Expr)
  | binary (op : Operator) (left right : Expr)
  deriving Repr, Inhabited

namespace Expr

/-- The text of an expression. -/
def text : Expr → String
  | number value => Decimal.plain value
  | var name => name
  | property entity prop => entity ++ "." ++ prop
  | neg inner => "-" ++ inner.text
  | binary op left right => "(" ++ left.text ++ " " ++ op.symbol ++ " " ++ right.text ++ ")"

/-- A minus in front of an expression: it becomes the sign of a literal. -/
def negated : Expr → Expr
  | number value => number (-value)
  | e => neg e

end Expr
end StageScript
