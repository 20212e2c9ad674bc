/-
Statements and programs.

A program is a list of statements. A statement either prints what its expression comes to or only
evaluates it, for the faults it may have.
-/
import Lox.Expr

set_option autoImplicit false

namespace Lox

/-- A statement. -/
inductive Stmt
  | expression (e : Expr)
  | print (e : Expr)
  deriving BEq, Repr

namespace Stmt

/-- The expression of a statement. -/
def expr : Stmt → Expr
  | expression e => e
  | print e => e

/-- The statement written out, as a tree with the statement's own parentheses. -/
def render : Stmt → String
  | expression e => "(; " ++ e.render ++ ")"
  | print e => "(print " ++ e.render ++ ")"

end Stmt

/-- A program: its statements in order. -/
abbrev Program := List Stmt

/-- The statements written out, one on a line. -/
def Program.render (program : Program) : String :=
  String.join (program.map fun s => s.render ++ "\n")

end Lox
