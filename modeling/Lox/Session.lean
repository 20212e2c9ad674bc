/-
Sessions: sources run one after the other.

A source is run in three stages, and a stage begins only when the one before it found no fault: it
is scanned, the program is read, the program is executed. A line given at a prompt may also be a
bare expression; then it is evaluated, its value is the answer, and nothing is written.

There are no variables, so runs share nothing but the sink they write to. A session threads the
sink through its steps.
-/
import Lox.Program.Execution
import Lox.Program.Grammar
import Lox.Token.Scan

set_option autoImplicit false

namespace Lox

/-! ## Faults of a run -/

/-- What can go wrong when a source is run. Compile faults come before anything is executed. -/
inductive RunFault
  | compile (ds : List Diagnostic)
  | execution (f : ExecutionFault)
  deriving DecidableEq, Repr

/-- The written form of a fault. -/
def RunFault.render : RunFault → String
  | compile ds => Diagnostic.renderAll ds
  | execution f => f.render

/-! ## Compiling -/

/-- The tokens of a source. -/
def tokensOf (source : String) : Attempt RunFault (List Token) :=
  (Token.scan source).reportAs fun d => .compile [d]

/-- The program of a source. -/
def programOf (source : String) : Attempt RunFault Program := do
  let tokens ← tokensOf source
  (Program.ofTokens tokens).reportAs .compile

/-- What a line at a prompt says: an expression to evaluate, or statements to execute. -/
inductive Entry
  | expression (e : Expr)
  | program (p : Program)
  deriving Repr

/-- Reads a line at a prompt. Only what is no expression is read as statements, and its faults
are those of the statements. -/
def entryOf (line : String) : Attempt RunFault Entry := do
  let tokens ← tokensOf line
  match Expr.ofTokens tokens with
  | .ok e => return .expression e
  | .error (.breach b) => throw (.breach b)
  | .error (.fault _) => return .program (← (Program.ofTokens tokens).reportAs .compile)

/-! ## Running -/

/-- Executes a program on a sink. -/
def runProgram (sink : Sink) (program : Program) : Written (Attempt RunFault Unit) :=
  (program.execute sink).map (·.reportAs .execution)

/-- Runs a source. -/
def runSource (sink : Sink) (source : String) : Written (Attempt RunFault Unit) :=
  match programOf source with
  | .error e => ⟨[], sink, .error e⟩
  | .ok program => runProgram sink program

/-- Runs a line given at a prompt. The answer to an expression is its value. -/
def runLine (sink : Sink) (line : String) : Written (Attempt RunFault (Option Value)) :=
  match entryOf line with
  | .error e => ⟨[], sink, .error e⟩
  | .ok (.expression e) =>
    ⟨[], sink, (e.eval.reportAs (.execution ∘ .runtime)).map some⟩
  | .ok (.program program) =>
    (runProgram sink program).map (·.map fun () => none)

/-! ## Sessions -/

/-- A step of a session. -/
inductive Step
  | line (text : String)
  | source (text : String)
  deriving DecidableEq, Repr

/-- Runs one step. The result of a source is never a value. -/
def Step.run (sink : Sink) : Step → Written (Attempt RunFault (Option Value))
  | line text => runLine sink text
  | source text => (runSource sink text).map (·.map fun () => none)

/-- Runs the steps of a session in order, whether they fail or not, and gives what each of them
left behind. -/
def runSession (sink : Sink) : List Step → List (Written (Attempt RunFault (Option Value)))
  | [] => []
  | step :: steps =>
    let done := step.run sink
    done :: runSession done.sink steps

end Lox
