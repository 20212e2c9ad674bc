/-
Trees as lists of their nodes.

In post-order every node comes behind its operands, the left ones first. This is the order in which
a tree is evaluated, and a list in this order determines the tree: reading it from the front, each
node takes as many of the trees made so far as it has operands.
-/
import Lox.Expr

set_option autoImplicit false

namespace Lox

/-- A node of a tree without its operands. -/
inductive Node
  | literal (value : Value)
  | group
  | unary (operator : Token)
  | binary (operator : Token)
  deriving Repr

namespace Expr

/-- The nodes, operands before operators, with those of `back` behind them. -/
def postorderOnto (back : List Node) : Expr → List Node
  | literal value => .literal value :: back
  | group inner => postorderOnto (.group :: back) inner
  | unary operator operand => postorderOnto (.unary operator :: back) operand
  | binary left operator right =>
    postorderOnto (postorderOnto (.binary operator :: back) right) left

/-- The nodes of a tree in post-order. -/
def postorder (e : Expr) : List Node := e.postorderOnto []

/-- Takes the operands of a node from the trees made so far, the last one first, and puts the
node's tree in their place. -/
def build? : List Expr → Node → Option (List Expr)
  | made, .literal value => some (literal value :: made)
  | inner :: made, .group => some (group inner :: made)
  | operand :: made, .unary operator => some (unary operator operand :: made)
  | right :: left :: made, .binary operator => some (binary left operator right :: made)
  | _, _ => none

/-- The tree with these nodes in post-order, if there is one. -/
def ofPostorder? (nodes : List Node) : Option Expr :=
  match nodes.foldlM build? [] with
  | some [e] => some e
  | _ => none

end Expr

end Lox
