/-
What an expression comes to.

Operands are evaluated before their operator is applied, the left one before the right one, and the
first fault ends the evaluation. Equality is defined on all values and so is negation by `!`; all
other operators ask for operands of one kind, and `+` for two numbers or two strings.

An operator token that is no operator of its arity can stand only in a tree made by hand. Applying
it breaks a contract, whatever its operands are.
-/
import Lox.Diagnostic
import Lox.Expr
import Lox.Failure

set_option autoImplicit false

namespace Lox

/-! ## Faults -/

/-- What is wrong with the operands of an operation. -/
inductive OperandFault
  | notNumber
  | notNumbers
  | notNumbersOrStrings
  deriving DecidableEq, Repr

/-- The wording of a fault. -/
def OperandFault.message : OperandFault → String
  | notNumber => "Operand must be a number."
  | notNumbers => "Operands must be numbers."
  | notNumbersOrStrings => "Operands must be two numbers or two strings."

/-- A fault of an operation, with the line and the lexeme of its operator. -/
structure RuntimeFault where
  cause : OperandFault
  line : Nat
  operator : String
  deriving DecidableEq, Repr

namespace RuntimeFault

/-- An operator with a fault in its operands. -/
def of (operator : Token) (cause : OperandFault) : RuntimeFault :=
  ⟨cause, operator.line, operator.lexeme⟩

/-- The written form, that of a diagnostic. -/
def render (f : RuntimeFault) : String :=
  Diagnostic.layout f.cause.message f.line f.operator

end RuntimeFault

/-! ## Operations -/

namespace Token

/-- Applies a unary operator. -/
def applyUnary (operator : Token) (operand : Value) : Attempt RuntimeFault Value :=
  match operator.meaning with
  | .symbol .minus =>
    match operand with
    | .number x => return .number (-x)
    | _ => throw (.fault (.of operator .notNumber))
  | .symbol .bang => return .bool !operand.truthy
  | _ => throw (.breach (.notUnary operator.lexeme))

/-- Applies an operation on numbers. -/
def applyToNumbers (operator : Token) (operation : Float → Float → Value) (left right : Value) :
    Attempt RuntimeFault Value :=
  match left, right with
  | .number x, .number y => return operation x y
  | _, _ => throw (.fault (.of operator .notNumbers))

/-- Applies a binary operator. Division by zero has an infinite result or none that is a number,
and is no fault. -/
def applyBinary (operator : Token) (left right : Value) : Attempt RuntimeFault Value :=
  match operator.meaning with
  | .symbol .plus =>
    match left, right with
    | .number x, .number y => return .number (x + y)
    | .string s, .string t => return .string (s ++ t)
    | _, _ => throw (.fault (.of operator .notNumbersOrStrings))
  | .symbol .minus => operator.applyToNumbers (fun x y => .number (x - y)) left right
  | .symbol .star => operator.applyToNumbers (fun x y => .number (x * y)) left right
  | .symbol .slash => operator.applyToNumbers (fun x y => .number (x / y)) left right
  | .symbol .greater => operator.applyToNumbers (fun x y => .bool (y < x)) left right
  | .symbol .greaterEqual => operator.applyToNumbers (fun x y => .bool (y ≤ x)) left right
  | .symbol .less => operator.applyToNumbers (fun x y => .bool (x < y)) left right
  | .symbol .lessEqual => operator.applyToNumbers (fun x y => .bool (x ≤ y)) left right
  | .symbol .equalEqual => return .bool (left == right)
  | .symbol .bangEqual => return .bool (left != right)
  | _ => throw (.breach (.notBinary operator.lexeme))

end Token

/-! ## Evaluation -/

namespace Expr

/-- The value of an expression, or the first fault on the way to it. -/
def eval : Expr → Attempt RuntimeFault Value
  | literal value => return value
  | group inner => inner.eval
  | unary operator operand => do
    let value ← operand.eval
    operator.applyUnary value
  | binary left operator right => do
    let l ← left.eval
    let r ← right.eval
    operator.applyBinary l r

end Expr

end Lox
