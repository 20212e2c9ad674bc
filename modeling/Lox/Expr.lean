/-
Expression trees.

A tree keeps its operators as the tokens they were read from, since a fault in an operation is
reported with the operator's lexeme and line, and it keeps parentheses as nodes. Nothing in the
type says that an operator token is an operator: trees can be made by hand.

A tree is written out in prefix form, every operation and every pair of parentheses in parentheses
of its own.
-/
import Lox.Token
import Lox.Value

set_option autoImplicit false

namespace Lox

/-- An expression. In `==` operators are compared as tokens and numbers as numbers. -/
inductive Expr
  | literal (value : Value)
  | group (inner : Expr)
  | unary (operator : Token) (operand : Expr)
  | binary (left : Expr) (operator : Token) (right : Expr)
  deriving BEq, Repr

namespace Expr

/-- The tree written out. -/
def render : Expr → String
  | literal value => value.literalText
  | group inner => "(group " ++ inner.render ++ ")"
  | unary operator operand => "(" ++ operator.lexeme ++ " " ++ operand.render ++ ")"
  | binary left operator right =>
    "(" ++ operator.lexeme ++ " " ++ left.render ++ " " ++ right.render ++ ")"

end Expr

end Lox
