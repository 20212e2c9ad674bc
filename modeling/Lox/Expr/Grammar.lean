/-
Reading an expression from tokens.

The grammar has five levels. At each of the upper four, operands of the next level are joined by
the level's operators, the leftmost two first; the innermost level has the unary operators, the
literals and the parentheses, inside which all levels begin again:

    equality   = comparison { ("!=" | "==") comparison }
    comparison = term { (">" | ">=" | "<" | "<=") term }
    term       = factor { ("+" | "-") factor }
    factor     = operand { ("*" | "/") operand }
    operand    = ("-" | "!") operand | "(" equality ")" | literal

A reader of one level uses up at least one token when it succeeds, and it looks no further than one
token ahead. When it fails, the fault keeps the tokens from the offending one on; the end of the
tokens offends where none is left.

Parentheses and unary operators may be nested only so deep. The depth that is left is what the
readers of operands are made by recursion on, so no reader needs any other bound.
-/
import Lox.Diagnostic
import Lox.Expr

set_option autoImplicit false

namespace Lox

/-! ## Faults -/

/-- What is wrong with a token where it stands. -/
inductive SyntaxFault
  | missingRightParen
  | expectedExpression
  | expectedSemicolonAfterValue
  | expectedSemicolonAfterExpression
  | expectedEndOfExpression
  | tooDeeplyNested
  deriving DecidableEq, Repr

/-- The wording of a fault. -/
def SyntaxFault.message : SyntaxFault → String
  | missingRightParen => "Expect ')' after expression."
  | expectedExpression => "Expect expression."
  | expectedSemicolonAfterValue => "Expect ';' after value."
  | expectedSemicolonAfterExpression => "Expect ';' after expression."
  | expectedEndOfExpression => "Expect end of expression."
  | tooDeeplyNested => "Expression nested too deeply."

/-- A fault and the tokens from the offending one on. -/
structure Misfit where
  cause : SyntaxFault
  rest : List Token
  deriving Repr

namespace Misfit

/-- The fault as a diagnostic. The end of the tokens is on the line of the end marker. -/
def diagnostic (marker : Token) (m : Misfit) : Diagnostic :=
  match m.rest with
  | [] => ⟨marker.line, "at end", m.cause.message⟩
  | t :: _ => ⟨t.line, t.lexeme, m.cause.message⟩

end Misfit

/-- Uses up one token of the given kind, or finds it missing. -/
def expect (kind : Kind) (cause : SyntaxFault) (tokens : List Token) :
    Except Misfit (List Token) :=
  match tokens with
  | [] => .error ⟨cause, []⟩
  | t :: rest => if t.kind = kind then .ok rest else .error ⟨cause, t :: rest⟩

theorem expect_ok {kind : Kind} {cause : SyntaxFault} {tokens rest : List Token}
    (found : expect kind cause tokens = .ok rest) :
    ∃ t, t.kind = kind ∧ tokens = t :: rest := by
  unfold expect at found
  split at found
  · simp at found
  · split at found
    · exact ⟨_, by assumption, by simpa using found⟩
    · simp at found

theorem expect_error {kind : Kind} {cause : SyntaxFault} {tokens : List Token} {m : Misfit}
    (missing : expect kind cause tokens = .error m) : m = ⟨cause, tokens⟩ := by
  unfold expect at missing
  split at missing
  · simpa using missing.symm
  · split at missing
    · simp at missing
    · simpa using missing.symm

/-! ## Operators -/

/-- The levels at which binary operators join operands, the loosest first. -/
inductive Level
  | equality | comparison | term | factor
  deriving DecidableEq, Repr

/-- The level of a binary operator. -/
def Symbol.level? : Symbol → Option Level
  | bangEqual | equalEqual => some .equality
  | greater | greaterEqual | less | lessEqual => some .comparison
  | plus | minus => some .term
  | star | slash => some .factor
  | _ => none

namespace Token

/-- The level of a token that is a binary operator. -/
def level? (t : Token) : Option Level :=
  match t.meaning with
  | .symbol s => s.level?
  | _ => none

/-- The token is a unary operator. -/
def isUnary (t : Token) : Bool :=
  match t.meaning with
  | .symbol .minus | .symbol .bang => true
  | _ => false

/-- The value of a token that is a literal. -/
def literal? (t : Token) : Option Value :=
  match t.meaning with
  | .keyword .false_ => some (.bool false)
  | .keyword .true_ => some (.bool true)
  | .keyword .nil_ => some .nil
  | .number x => some (.number x)
  | .string text => some (.string text)
  | _ => none

end Token

/-! ## Readers -/

/-- A way to read an expression from the front of some tokens. Success uses up some of them;
failure points at one of them, or at their end. -/
structure Reader where
  read : List Token → Except Misfit (Expr × List Token)
  uses : ∀ {tokens e rest}, read tokens = .ok (e, rest) →
    ∃ used, used ≠ [] ∧ tokens = used ++ rest
  points : ∀ {tokens m}, read tokens = .error m → m.rest <:+ tokens

namespace Reader

theorem uses_lt (reader : Reader) {tokens : List Token} {e : Expr} {rest : List Token}
    (h : reader.read tokens = .ok (e, rest)) : rest.length < tokens.length := by
  obtain ⟨used, some_used, rfl⟩ := reader.uses h
  have := List.length_pos_iff.2 some_used
  simp only [List.length_append]
  omega

/-! ### Chains of binary operators -/

/-- Joins `left` with further operands as long as an operator of the level follows. -/
def join (level : Level) (operand : Reader) (left : Expr) (tokens : List Token) :
    Except Misfit (Expr × List Token) :=
  match tokens with
  | [] => .ok (left, [])
  | operator :: more =>
    if operator.level? = some level then
      match _ : operand.read more with
      | .error m => .error m
      | .ok (right, rest) => join level operand (.binary left operator right) rest
    else .ok (left, operator :: more)
termination_by tokens.length
decreasing_by
  have := operand.uses_lt (by assumption)
  simp only [List.length_cons]
  omega

theorem join_suffix (level : Level) (operand : Reader) (left : Expr) (tokens : List Token) :
    (∀ e rest, join level operand left tokens = .ok (e, rest) → rest <:+ tokens) ∧
      ∀ m, join level operand left tokens = .error m → m.rest <:+ tokens := by
  fun_induction join level operand left tokens with
  | case1 => simp
  | case2 left operator more _ m hm =>
    refine ⟨by simp, fun m' h => ?_⟩
    obtain rfl : m = m' := by simpa using h
    exact (operand.points hm).trans (List.suffix_cons _ _)
  | case3 left operator more _ right rest hread ih =>
    obtain ⟨used, _, rfl⟩ := operand.uses hread
    have inside : rest <:+ operator :: (used ++ rest) :=
      (List.suffix_append _ _).trans (List.suffix_cons _ _)
    exact ⟨fun e r h => (ih.1 e r h).trans inside, fun m h => (ih.2 m h).trans inside⟩
  | case4 => simp

/-- One or more operands with operators of the level between them. -/
def chain (level : Level) (operand : Reader) : Reader where
  read tokens :=
    match operand.read tokens with
    | .error m => .error m
    | .ok (left, rest) => join level operand left rest
  uses {tokens e rest} h := by
    split at h
    · simp at h
    · rename_i left middle hread
      obtain ⟨used, some_used, rfl⟩ := operand.uses hread
      obtain ⟨joined, rfl⟩ := (join_suffix level operand left middle).1 e rest h
      exact ⟨used ++ joined, by simp [some_used], by simp⟩
  points {tokens m} h := by
    split at h
    · rename_i m' hread
      obtain rfl : m' = m := by simpa using h
      exact operand.points hread
    · rename_i left middle hread
      obtain ⟨used, _, rfl⟩ := operand.uses hread
      exact ((join_suffix level operand left middle).2 m h).trans (List.suffix_append _ _)

/-- All levels of binary operators over a reader of operands. -/
def allLevels (operand : Reader) : Reader :=
  (((operand.chain .factor).chain .term).chain .comparison).chain .equality

/-! ### Operands -/

/-- Reads the rest of a pair of parentheses whose first one was used up. -/
def readGroup (inner : Reader) (tokens : List Token) : Except Misfit (Expr × List Token) :=
  match inner.read tokens with
  | .error m => .error m
  | .ok (e, rest) =>
    match expect (.symbol .rightParen) .missingRightParen rest with
    | .error m => .error m
    | .ok rest => .ok (.group e, rest)

/-- Reads an operand whose own operands are read by `nested`. -/
def readOperand (nested : Reader) : List Token → Except Misfit (Expr × List Token)
  | [] => .error ⟨.expectedExpression, []⟩
  | t :: more =>
    if t.isUnary then
      match nested.read more with
      | .error m => .error m
      | .ok (e, rest) => .ok (.unary t e, rest)
    else if t.kind = .symbol .leftParen then nested.allLevels.readGroup more
    else
      match t.literal? with
      | some value => .ok (.literal value, more)
      | none => .error ⟨.expectedExpression, t :: more⟩

theorem readGroup_suffix (inner : Reader) (tokens : List Token) :
    (∀ e rest, inner.readGroup tokens = .ok (e, rest) → rest <:+ tokens) ∧
      ∀ m, inner.readGroup tokens = .error m → m.rest <:+ tokens := by
  unfold readGroup
  split
  · rename_i m hread
    exact ⟨by simp, fun m' h => by obtain rfl : m = m' := by simpa using h
                                   exact inner.points hread⟩
  · rename_i e middle hread
    obtain ⟨used, _, rfl⟩ := inner.uses hread
    split
    · rename_i m hexpect
      refine ⟨by simp, fun m' h => ?_⟩
      obtain rfl : m = m' := by simpa using h
      rw [expect_error hexpect]
      exact List.suffix_append _ _
    · rename_i rest hexpect
      obtain ⟨t, _, rfl⟩ := expect_ok hexpect
      refine ⟨fun e' rest' h => ?_, by simp⟩
      obtain ⟨_, rfl⟩ : _ ∧ rest = rest' := by simpa using h
      exact (List.suffix_cons _ _).trans (List.suffix_append _ _)

/-- Reads an operand: a unary operator with its operand, an expression in parentheses, or a
literal. -/
def operand (nested : Reader) : Reader where
  read := nested.readOperand
  uses {tokens e rest} h := by
    unfold readOperand at h
    split at h
    · simp at h
    · rename_i t more
      suffices rest <:+ more by
        obtain ⟨used, rfl⟩ := this
        exact ⟨t :: used, by simp, by simp⟩
      split at h
      · split at h
        · simp at h
        · rename_i e' rest' hread
          obtain ⟨_, rfl⟩ : _ ∧ rest' = rest := by simpa using h
          obtain ⟨used, _, rfl⟩ := nested.uses hread
          exact List.suffix_append _ _
      · split at h
        · exact (readGroup_suffix nested.allLevels more).1 e rest h
        · split at h
          · obtain ⟨_, rfl⟩ : _ ∧ more = rest := by simpa using h
            exact List.suffix_refl _
          · simp at h
  points {tokens m} h := by
    unfold readOperand at h
    split at h
    · obtain rfl : _ = m := by simpa using h
      exact List.suffix_refl _
    · rename_i t more
      split at h
      · split at h
        · rename_i m' hread
          obtain rfl : m' = m := by simpa using h
          exact (nested.points hread).trans (List.suffix_cons _ _)
        · simp at h
      · split at h
        · exact ((readGroup_suffix nested.allLevels more).2 m h).trans (List.suffix_cons _ _)
        · split at h
          · simp at h
          · obtain rfl : _ = m := by simpa using h
            exact List.suffix_refl _

/-- Reads nothing: the nesting is used up before the next operand. -/
def exhausted : Reader where
  read tokens := .error ⟨.tooDeeplyNested, tokens⟩
  uses h := by simp at h
  points {tokens m} h := by
    obtain rfl : _ = m := by simpa using h
    exact List.suffix_refl _

/-- Operands that are nested less than `depth` deep. -/
def operands (depth : Nat) : Reader :=
  match depth with
  | 0 => exhausted
  | depth + 1 => operand (operands depth)

end Reader

/-! ## Expressions -/

/-- The bound on the nesting of parentheses and unary operators. -/
def maxNesting : Nat := 200

/-- The reader of expressions. -/
def Expr.reader : Reader := (Reader.operands maxNesting).allLevels

/-- Reads an expression that all of the tokens make up. -/
def Expr.readAll (tokens : List Token) : Except Misfit Expr :=
  match Expr.reader.read tokens with
  | .error m => .error m
  | .ok (e, []) => .ok e
  | .ok (_, t :: rest) => .error ⟨.expectedEndOfExpression, t :: rest⟩

end Lox
