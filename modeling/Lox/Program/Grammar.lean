/-
Reading a program from tokens.

    program   = { statement }
    statement = "print" expression ";" | expression ";"

A fault does not end the reading. What follows it is skipped up to the next place where a statement
is likely to begin, behind a semicolon or in front of a keyword that begins a statement, and the
reading goes on there, so that all faults of a program are found at once. Nothing else is carried
over: a program is read in passes, each pass reads one statement or finds one fault, and where a
pass begins is all it depends on.
-/
import Lox.Expr.Grammar
import Lox.Program
import Lox.Token.Sequence

set_option autoImplicit false

namespace Lox

/-! ## One statement -/

/-- Reads the expression of a statement and the semicolon behind it. -/
def Stmt.readBody (make : Expr → Stmt) (missing : SyntaxFault) (tokens : List Token) :
    Except Misfit (Stmt × List Token) :=
  match Expr.reader.read tokens with
  | .error m => .error m
  | .ok (e, rest) =>
    match expect (.symbol .semicolon) missing rest with
    | .error m => .error m
    | .ok rest => .ok (make e, rest)

/-- Reads a statement. -/
def Stmt.read (tokens : List Token) : Except Misfit (Stmt × List Token) :=
  match tokens with
  | [] => readBody .expression .expectedSemicolonAfterExpression []
  | t :: rest =>
    if t.kind = .keyword .print_ then readBody .print .expectedSemicolonAfterValue rest
    else readBody .expression .expectedSemicolonAfterExpression (t :: rest)

/-! ## Recovery -/

/-- A statement is likely to begin with this token. -/
def Token.beginsStatement (t : Token) : Bool :=
  match t.meaning with
  | .keyword .class_ | .keyword .fun_ | .keyword .var_ | .keyword .for_ | .keyword .if_
  | .keyword .while_ | .keyword .print_ | .keyword .return_ => true
  | _ => false

/-- Skips tokens until a statement is likely to begin, `last` being the token before them. -/
def resume (last : Token) : List Token → List Token
  | [] => []
  | t :: rest =>
    if last.kind = .symbol .semicolon || t.beginsStatement then t :: rest else resume t rest

/-- Where the reading goes on after a fault at the first of these tokens. That token is skipped
whatever it is, so a fault is never met twice. -/
def recover : List Token → List Token
  | [] => []
  | t :: rest => resume t rest

/-! ## A pass uses up tokens -/

theorem Stmt.readBody_suffix (make : Expr → Stmt) (missing : SyntaxFault) (tokens : List Token) :
    (∀ s rest, readBody make missing tokens = .ok (s, rest) →
      rest <:+ tokens ∧ rest.length < tokens.length) ∧
      ∀ m, readBody make missing tokens = .error m → m.rest <:+ tokens := by
  unfold readBody
  split
  · rename_i m hread
    refine ⟨by simp, fun m' h => ?_⟩
    obtain rfl : m = m' := by simpa using h
    exact Expr.reader.points hread
  · rename_i e middle hread
    have shorter := Expr.reader.uses_lt hread
    obtain ⟨used, _, rfl⟩ := Expr.reader.uses hread
    split
    · rename_i m hexpect
      refine ⟨by simp, fun m' h => ?_⟩
      obtain rfl : m = m' := by simpa using h
      rw [expect_error hexpect]
      exact List.suffix_append _ _
    · rename_i rest hexpect
      obtain ⟨t, _, rfl⟩ := expect_ok hexpect
      refine ⟨fun s rest' h => ?_, by simp⟩
      obtain ⟨_, rfl⟩ : _ ∧ rest = rest' := by simpa using h
      refine ⟨(List.suffix_cons _ _).trans (List.suffix_append _ _), ?_⟩
      simp only [List.length_cons] at shorter
      omega

/-- A statement uses up tokens, and a fault points at one of them or at their end. -/
theorem Stmt.read_suffix (tokens : List Token) :
    (∀ s rest, read tokens = .ok (s, rest) → rest <:+ tokens ∧ rest.length < tokens.length) ∧
      ∀ m, read tokens = .error m → m.rest <:+ tokens := by
  unfold read
  split
  · exact readBody_suffix _ _ _
  · rename_i t rest
    split
    · have body := readBody_suffix .print .expectedSemicolonAfterValue rest
      refine ⟨fun s r h => ?_, fun m h => (body.2 m h).trans (List.suffix_cons _ _)⟩
      refine ⟨(body.1 s r h).1.trans (List.suffix_cons _ _), ?_⟩
      exact Nat.lt_succ_of_lt (body.1 s r h).2
    · exact readBody_suffix _ _ _

theorem resume_suffix (last : Token) (tokens : List Token) : resume last tokens <:+ tokens := by
  fun_induction resume last tokens with
  | case1 => exact List.suffix_refl _
  | case2 => exact List.suffix_refl _
  | case3 _ _ _ _ ih => exact ih.trans (List.suffix_cons _ _)

/-- Recovery skips at least one token, if there is one. -/
theorem recover_length (tokens : List Token) : (recover tokens).length ≤ tokens.length - 1 := by
  cases tokens with
  | nil => simp [recover]
  | cons t rest => simpa [recover] using (resume_suffix t rest).length_le

/-! ## Programs -/

/-- The passes over some tokens, each with the statement it read or the fault it found. -/
def passes (tokens : List Token) : List (Except Misfit Stmt) :=
  match tokens with
  | [] => []
  | t :: more =>
    match _ : Stmt.read (t :: more) with
    | .ok (s, rest) => .ok s :: passes rest
    | .error m => .error m :: passes (recover m.rest)
termination_by tokens.length
decreasing_by
  · exact ((Stmt.read_suffix _).1 _ _ (by assumption)).2
  · have inside := ((Stmt.read_suffix _).2 _ (by assumption)).length_le
    have skipped := recover_length m.rest
    simp only [List.length_cons] at inside ⊢
    omega

/-- The statement of a pass that read one. -/
def statement? : Except Misfit Stmt → Option Stmt
  | .ok s => some s
  | .error _ => none

/-- The fault of a pass that found one. -/
def misfit? : Except Misfit Stmt → Option Misfit
  | .ok _ => none
  | .error m => some m

/-- Reads a program that all of the tokens make up, or finds all its faults in order. -/
def Program.readAll (tokens : List Token) : Except (List Misfit) Program :=
  let done := passes tokens
  match done.filterMap misfit? with
  | [] => .ok (done.filterMap statement?)
  | m :: misfits => .error (m :: misfits)

/-! ## From tokens with their end marker -/

namespace TokenSequence

/-- The program that a token sequence holds, or all its faults. -/
def program (tokens : TokenSequence) : Except (List Diagnostic) Program :=
  (Program.readAll tokens.body).mapError (·.map (·.diagnostic tokens.marker))

/-- The expression that a token sequence holds, or its fault. -/
def expression (tokens : TokenSequence) : Except Diagnostic Expr :=
  (Expr.readAll tokens.body).mapError (·.diagnostic tokens.marker)

end TokenSequence

/-- The program in a list of tokens. -/
def Program.ofTokens (tokens : List Token) : Attempt (List Diagnostic) Program := do
  let sequence ← TokenSequence.ofTokens tokens
  sequence.program.mapError .fault

/-- The expression in a list of tokens. -/
def Expr.ofTokens (tokens : List Token) : Attempt Diagnostic Expr := do
  let sequence ← TokenSequence.ofTokens tokens
  sequence.expression.mapError .fault

end Lox
