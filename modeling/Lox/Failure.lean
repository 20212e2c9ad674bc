/-
The two ways a stage can fail.

A stage may find a fault in what it was given to process: a character no token starts with, a
missing parenthesis, an operand of the wrong type. Such a fault is reported, and it is part of the
stage's job. Or a stage may be handed something it was promised never to be handed: tokens without
an end marker, an operator that is none, places out of order. Then a contract between two parts is
broken and there is nothing to report about the source.

The stages keep the two apart, so that it can be said, and proved, that no source text breaks a
contract. Hand-made tokens and trees can.
-/

set_option autoImplicit false

namespace Lox

/-- A contract that was broken. -/
inductive Breach
  /-- A slice was asked for whose end lies before its start or in another source. -/
  | slice
  /-- A token sequence does not end with the end marker. -/
  | unended
  /-- A tree holds this lexeme as a unary operator. -/
  | notUnary (lexeme : String)
  /-- A tree holds this lexeme as a binary operator. -/
  | notBinary (lexeme : String)
  deriving DecidableEq, Repr

/-- What is said about a broken contract, if anything. -/
def Breach.message? : Breach → Option String
  | .slice => none
  | .unended => some "token sequence must end with Eof"
  | .notUnary lexeme =>
    some ("internal error: entered unreachable code: " ++ lexeme ++ " is not a unary operator")
  | .notBinary lexeme =>
    some ("internal error: entered unreachable code: " ++ lexeme ++ " is not a binary operator")

/-- A stage's failure: a fault of its input, or a breach. -/
inductive Failure (ε : Type)
  | fault (report : ε)
  | breach (broken : Breach)
  deriving DecidableEq, Repr

/-- What a stage comes to: a result, or a failure. -/
abbrev Attempt (ε α : Type) := Except (Failure ε) α

/-- The same attempt with its fault reported in other terms. -/
def Attempt.reportAs {ε δ α : Type} (f : ε → δ) (attempt : Attempt ε α) : Attempt δ α :=
  match attempt with
  | .ok a => .ok a
  | .error (.fault e) => .error (.fault (f e))
  | .error (.breach b) => .error (.breach b)

/-- Two attempts come to the same, with results and failures compared by `==`. -/
def Attempt.agrees {ε α : Type} [BEq ε] [BEq α] (a b : Attempt ε α) : Bool :=
  match a, b with
  | .ok x, .ok y => x == y
  | .error (.fault x), .error (.fault y) => x == y
  | .error (.breach x), .error (.breach y) => x == y
  | _, _ => false

end Lox
