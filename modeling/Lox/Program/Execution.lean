/-
What a program writes.

Statements are executed in order, up to the first failure. A `print` statement evaluates its
expression and writes the value's text and a line feed; nothing else writes. A fault in an
expression and a refusing sink both end the execution, and what was written before stays written.
-/
import Lox.Expr.Evaluation
import Lox.Program
import Lox.Sink

set_option autoImplicit false

namespace Lox

/-- What can go wrong when a program is executed. -/
inductive ExecutionFault
  | runtime (f : RuntimeFault)
  | output (r : Refusal)
  deriving DecidableEq, Repr

/-- The written form of a fault. A refusal belongs to no line of the program. -/
def ExecutionFault.render : ExecutionFault → String
  | runtime f => f.render
  | output r => "Error: Failed to write output: " ++ r.message

/-- Executes a statement. -/
def Stmt.execute (sink : Sink) (s : Stmt) : Written (Attempt ExecutionFault Unit) :=
  match s.expr.eval.reportAs .runtime, s with
  | .error e, _ => ⟨[], sink, .error e⟩
  | .ok _, .expression _ => ⟨[], sink, .ok ()⟩
  | .ok value, .print _ =>
    (sink.writeText (value.text ++ "\n")).map fun
      | none => .ok ()
      | some r => .error (.fault (.output r))

/-- Executes the statements of a program. -/
def Program.execute (sink : Sink) : Program → Written (Attempt ExecutionFault Unit)
  | [] => ⟨[], sink, .ok ()⟩
  | s :: program =>
    (s.execute sink).andThen fun
      | .ok (), sink => execute sink program
      | .error e, sink => ⟨[], sink, .error e⟩

end Lox
