/-
Two sources compared stage by stage.

Sources that differ may have the same tokens, and sources with different tokens the same trees.
Each comparison is of results as a whole: two faults agree when line, location and wording do.
What cannot be scanned has no trees to compare.
-/
import Lox.Program.Grammar
import Lox.Token.Scan

set_option autoImplicit false

namespace Lox

/-- In which stages two sources agree. The later stages exist only if both can be scanned. -/
structure Comparison where
  scan : Bool
  expression : Option Bool
  program : Option Bool
  deriving DecidableEq, Repr

/-- Compares two sources. -/
def compareSources (a b : String) : Comparison :=
  let left := Token.scan a
  let right := Token.scan b
  let trees := match left, right with
    | .ok s, .ok t => some (s, t)
    | _, _ => none
  { scan := left.agrees right
    expression := trees.map fun (s, t) => (Expr.ofTokens s).agrees (Expr.ofTokens t)
    program := trees.map fun (s, t) => (Program.ofTokens s).agrees (Program.ofTokens t) }

end Lox
