/-
How deep the recursion over a tree goes.

Evaluating a tree and writing it out are recursions into the operands of every node, so that as
many of their calls are inside each other as the tree is high. The bound on nesting is a bound on
the parentheses and unary operators of a path from the root to a leaf, and on nothing else. The
binary operators of a level are read one after the other without any recursion, each operation
becoming the left operand of the next one, and so `row`, which is not nested at all, is as high as
one likes and needs a recursion as deep.

What the bound is worth is therefore stated with the binary operations of a path: beyond these, a
recursion is never deeper than the bound.
-/
import Lox.Proofs.Grammar.Depth

set_option autoImplicit false

namespace Lox

namespace Expr

/-! ## Height -/

/-- The number of nodes on the longest path from the root to a leaf. -/
def height : Expr → Nat
  | literal _ => 1
  | group inner => inner.height + 1
  | unary _ operand => operand.height + 1
  | binary left _ right => max left.height right.height + 1

/-- The largest number of binary operations around one place of the tree. -/
def operations : Expr → Nat
  | literal _ => 0
  | group inner => inner.operations
  | unary _ operand => operand.operations
  | binary left _ right => max left.operations right.operations + 1

theorem height_pos (e : Expr) : 0 < e.height := by
  cases e <;> simp [height]

/-- The nodes above a leaf are nested or binary. -/
theorem height_le (e : Expr) : e.height ≤ e.nesting + e.operations + 1 := by
  induction e with
  | literal value => simp [height]
  | group inner ih =>
    simp only [height, nesting, operations]
    omega
  | unary operator operand ih =>
    simp only [height, nesting, operations]
    omega
  | binary left operator right ihleft ihright =>
    simp only [height, nesting, operations]
    omega

/-- Every node on a path has a token of its own. -/
theorem WrittenBy.height_le {e : Expr} {tokens : List Token} (h : e.WrittenBy tokens) :
    e.height ≤ tokens.length := by
  induction h with
  | literal _ => simp [height]
  | group _ _ _ ih =>
    simp only [height, List.cons_append, List.length_cons, List.length_append]
    omega
  | unary _ ih =>
    simp only [height, List.length_cons]
    omega
  | binary _ _ ihleft ihright =>
    simp only [height, List.length_append, List.length_cons]
    omega

/-! ## Calls inside each other -/

/-- Evaluation by calls of which no more than so many are inside each other. There is no answer
where that is not enough. -/
def evalWithin : Nat → Expr → Option (Attempt RuntimeFault Value)
  | 0, _ => none
  | _ + 1, literal value => some (.ok value)
  | depth + 1, group inner => evalWithin depth inner
  | depth + 1, unary operator operand =>
    match evalWithin depth operand with
    | some (.ok value) => some (operator.applyUnary value)
    | stopped => stopped
  | depth + 1, binary left operator right =>
    match evalWithin depth left with
    | some (.ok l) =>
      match evalWithin depth right with
      | some (.ok r) => some (operator.applyBinary l r)
      | stopped => stopped
    | stopped => stopped

/-- The tree written out by calls of which no more than so many are inside each other. -/
def renderWithin : Nat → Expr → Option String
  | 0, _ => none
  | _ + 1, literal value => some value.literalText
  | depth + 1, group inner => do
    return "(group " ++ (← renderWithin depth inner) ++ ")"
  | depth + 1, unary operator operand => do
    return "(" ++ operator.lexeme ++ " " ++ (← renderWithin depth operand) ++ ")"
  | depth + 1, binary left operator right => do
    return "(" ++ operator.lexeme ++ " " ++ (← renderWithin depth left) ++ " "
      ++ (← renderWithin depth right) ++ ")"

/-- The height of a tree is depth enough to evaluate it. -/
theorem evalWithin_of_height_le {e : Expr} {depth : Nat} (h : e.height ≤ depth) :
    evalWithin depth e = some e.eval := by
  induction depth generalizing e with
  | zero => exact absurd h (Nat.not_le.2 e.height_pos)
  | succ depth ih =>
    cases e with
    | literal value => rfl
    | group inner =>
      rw [evalWithin, eval]
      exact ih (Nat.le_of_succ_le_succ h)
    | unary operator operand =>
      rw [evalWithin, eval, ih (Nat.le_of_succ_le_succ h)]
      cases operand.eval <;> rfl
    | binary left operator right =>
      have hboth := Nat.max_le.1 (Nat.le_of_succ_le_succ h)
      rw [evalWithin, eval, ih hboth.1, ih hboth.2]
      cases left.eval with
      | error failure => rfl
      | ok l => cases right.eval <;> rfl

/-- Of a tree that has a value every node is evaluated, so less depth than its height is not
enough. -/
theorem evalWithin_eq_none {e : Expr} {value : Value} {depth : Nat} (hvalue : e.eval = .ok value)
    (h : depth < e.height) : evalWithin depth e = none := by
  induction depth generalizing e value with
  | zero => rfl
  | succ depth ih =>
    cases e with
    | literal _ => simp [height] at h
    | group inner =>
      rw [evalWithin]
      exact ih hvalue (Nat.lt_of_succ_lt_succ h)
    | unary operator operand =>
      obtain ⟨x, hx, -⟩ := Attempt.bind_eq_ok hvalue
      rw [evalWithin, ih hx (Nat.lt_of_succ_lt_succ h)]
    | binary left operator right =>
      obtain ⟨l, hl, hrest⟩ := Attempt.bind_eq_ok hvalue
      obtain ⟨r, hr, -⟩ := Attempt.bind_eq_ok hrest
      rw [evalWithin]
      by_cases hleft : depth < left.height
      · rw [ih hl hleft]
      · have hright : depth < right.height := by
          simp only [height] at h
          omega
        rw [evalWithin_of_height_le (Nat.le_of_not_lt hleft), hl, ih hr hright]

/-- A tree is written out with the depth of its height, and with no less. -/
theorem renderWithin_eq (depth : Nat) (e : Expr) :
    renderWithin depth e = if e.height ≤ depth then some e.render else none := by
  induction depth generalizing e with
  | zero => rw [if_neg (Nat.not_le.2 e.height_pos), renderWithin]
  | succ depth ih =>
    cases e with
    | literal value => simp [renderWithin, render, height]
    | group inner =>
      by_cases h : inner.height ≤ depth <;> simp [renderWithin, render, height, ih, h]
    | unary operator operand =>
      by_cases h : operand.height ≤ depth <;> simp [renderWithin, render, height, ih, h]
    | binary left operator right =>
      have hboth : max left.height right.height + 1 ≤ depth + 1 ↔
          left.height ≤ depth ∧ right.height ≤ depth := by omega
      rw [renderWithin, ih, ih]
      simp only [render, height, hboth]
      by_cases hleft : left.height ≤ depth <;> by_cases hright : right.height ≤ depth <;>
        simp [hleft, hright]

/-! ## What is bounded -/

/-- The recursion over a tree that is read from the tokens: it is as deep as the bound on nesting
and the binary operations of a path allow, and no deeper than there are tokens. -/
structure RecursionBounded (tokens : List Token) (e : Expr) : Prop where
  nesting : e.nesting ≤ maxNesting
  height : e.height ≤ maxNesting + e.operations
  tokens : e.height ≤ tokens.length
  evaluates : ∀ depth, maxNesting + e.operations ≤ depth → evalWithin depth e = some e.eval
  renders : ∀ depth, maxNesting + e.operations ≤ depth → renderWithin depth e = some e.render

theorem DerivesFrom.recursionBounded {e : Expr} {body tokens : List Token}
    (h : e.DerivesFrom body) (hlength : body.length ≤ tokens.length) :
    e.RecursionBounded tokens := by
  have hshallow := h.shallow
  have hnodes := e.height_le
  have hheight : e.height ≤ maxNesting + e.operations := by omega
  constructor
  case nesting => omega
  case height => exact hheight
  case tokens => exact Nat.le_trans h.written.height_le hlength
  case evaluates =>
    intro depth hdepth
    exact evalWithin_of_height_le (Nat.le_trans hheight hdepth)
  case renders =>
    intro depth hdepth
    rw [renderWithin_eq, if_pos (Nat.le_trans hheight hdepth)]

end Expr

/-- The expression of a statement that derives from tokens derives from some of them. -/
theorem Stmt.DerivesFrom.expr {s : Stmt} {tokens : List Token} (h : s.DerivesFrom tokens) :
    ∃ body, s.expr.DerivesFrom body ∧ body.length ≤ tokens.length := by
  cases h with
  | @expression e body last he _ => exact ⟨body, he, by simp⟩
  | @print e first last body _ he _ =>
    refine ⟨body, he, ?_⟩
    simp only [List.cons_append, List.length_cons, List.length_append]
    omega

theorem Program.DerivesFrom.expr {program : Program} {tokens : List Token}
    (h : Program.DerivesFrom program tokens) {s : Stmt} (hs : s ∈ program) :
    ∃ body, s.expr.DerivesFrom body ∧ body.length ≤ tokens.length := by
  induction h with
  | nil => cases hs
  | cons hfirst _ ih =>
    rw [List.length_append]
    rcases List.mem_cons.1 hs with rfl | hs
    · obtain ⟨body, he, hlength⟩ := hfirst.expr
      exact ⟨body, he, by omega⟩
    · obtain ⟨body, he, hlength⟩ := ih hs
      exact ⟨body, he, by omega⟩

/-- **The recursion over a tree is bounded by the nesting and the binary operations.** A tree that
is returned, alone or in a program, has no more parentheses and unary operators on a path than the
bound on nesting, and evaluating it and writing it out go no deeper than that many calls and one
for each binary operation on a path. Tokens that write a tree with more parentheses and unary
operators on a path are refused with diagnostics. -/
theorem recursion_bounded (tokens : List Token) :
    (∀ e, Expr.ofTokens tokens = .ok e → e.RecursionBounded tokens) ∧
    (∀ program, Program.ofTokens tokens = .ok program →
      ∀ s ∈ program, s.expr.RecursionBounded tokens) ∧
    (∀ e : Expr, Terminated tokens → e.Canonical → e.WrittenBy (untilMarker tokens) →
      maxNesting < e.nesting → ∃ d, Expr.ofTokens tokens = .error (.fault d)) ∧
    ∀ (program : Program) s, Terminated tokens →
      Program.WrittenBy program (untilMarker tokens) → s ∈ program →
        maxNesting < s.expr.nesting → ∃ ds, Program.ofTokens tokens = .error (.fault ds) := by
  have hbody : (untilMarker tokens).length ≤ tokens.length := (List.takeWhile_prefix _).length_le
  refine ⟨?_, ?_, ?_, ?_⟩
  · intro e he
    exact (Expr.derivesFrom_of_ofTokens he).recursionBounded hbody
  · intro program hprogram s hs
    obtain ⟨body, he, hlength⟩ := (Program.derivesFrom_of_ofTokens hprogram).expr hs
    exact he.recursionBounded (Nat.le_trans hlength hbody)
  · intro e hterminated hcanonical hwritten hdeep
    exact hwritten.refused hcanonical hterminated (Nat.le_of_lt hdeep)
  · intro program s hterminated hwritten hs hdeep
    exact hwritten.refused hterminated hs (Nat.le_of_lt hdeep)

/-! ## What is not bounded -/

namespace Expr

/-- The sign of equality. -/
def equals : Token := ⟨.symbol .equalEqual, "==", 1⟩

/-- The tokens `nil == nil == … == nil` with so many signs of equality. -/
def rowTokens : Nat → List Token
  | 0 => [⟨.keyword .nil_, "nil", 1⟩]
  | n + 1 => rowTokens n ++ [equals, ⟨.keyword .nil_, "nil", 1⟩]

/-- The tree of these tokens. -/
def row : Nat → Expr
  | 0 => literal .nil
  | n + 1 => binary (row n) equals (literal .nil)

theorem row_height (n : Nat) : (row n).height = n + 1 := by
  induction n with
  | zero => rfl
  | succ n ih =>
    simp only [row, height, ih]
    omega

theorem row_nesting (n : Nat) : (row n).nesting = 0 := by
  induction n with
  | zero => rfl
  | succ n ih => simp only [row, nesting, ih, Nat.max_self]

theorem row_eval (n : Nat) : ∃ value, (row n).eval = .ok value := by
  induction n with
  | zero => exact ⟨.nil, rfl⟩
  | succ n ih =>
    obtain ⟨value, hvalue⟩ := ih
    exact ⟨.bool (value == .nil), by rw [row, eval, hvalue]; rfl⟩

theorem row_derivesFrom (n : Nat) : (row n).DerivesFrom (rowTokens n) := by
  have hequals : equals.Joins .equality := ⟨.equalEqual, by decide, rfl⟩
  refine ⟨?_, by rw [row_nesting]; decide, ?_⟩
  · induction n with
    | zero => exact .literal .nil
    | succ n ih => exact .binary hequals ih ih.bindsAt_zero (.literal .nil) trivial
  · induction n with
    | zero => exact .literal rfl
    | succ n ih => exact .binary ih (.literal rfl)

/-- A row is read as it is. -/
theorem ofTokens_row (n : Nat) : Expr.ofTokens (rowTokens n ++ [.endMarker 1]) = .ok (row n) :=
  (row_derivesFrom n).ofTokens 1

/-- With a semicolon behind it a row is a program. -/
theorem ofTokens_row_statement (n : Nat) :
    Program.ofTokens (rowTokens n ++ [⟨.symbol .semicolon, ";", 1⟩] ++ [.endMarker 1]) =
      .ok [.expression (row n)] := by
  have hderives : Program.DerivesFrom [.expression (row n)]
      (rowTokens n ++ [⟨.symbol .semicolon, ";", 1⟩]) := by
    rw [← List.append_nil (_ ++ [_])]
    exact .cons (.expression (row_derivesFrom n) rfl) .nil
  rw [Program.ofTokens_append hderives.isEnding_eq_false rfl ⟨_, rfl, rfl⟩,
    Attempt.mapError_eq_ok_iff, Program.readAll_eq_ok_iff]
  exact hderives

/-- **Nothing bounds the height of a tree.** No number bounds the heights of all expressions that
are read, nor of those in all programs that are read, and no depth is enough to evaluate and to
write out all of them. -/
theorem height_unbounded :
    (¬ ∃ bound, ∀ tokens e, Expr.ofTokens tokens = .ok e → e.height ≤ bound) ∧
    (¬ ∃ bound, ∀ tokens program, Program.ofTokens tokens = .ok program →
      ∀ s ∈ program, s.expr.height ≤ bound) ∧
    (¬ ∃ depth, ∀ tokens e, Expr.ofTokens tokens = .ok e → evalWithin depth e = some e.eval) ∧
    ¬ ∃ depth, ∀ tokens e, Expr.ofTokens tokens = .ok e →
      renderWithin depth e = some e.render := by
  refine ⟨?_, ?_, ?_, ?_⟩
  · rintro ⟨bound, hbound⟩
    have hle := hbound _ _ (ofTokens_row bound)
    rw [row_height] at hle
    omega
  · rintro ⟨bound, hbound⟩
    have hle := hbound _ _ (ofTokens_row_statement bound) _ (List.mem_singleton_self _)
    rw [Stmt.expr, row_height] at hle
    omega
  · rintro ⟨depth, hdepth⟩
    obtain ⟨value, hvalue⟩ := row_eval depth
    have heval := hdepth _ _ (ofTokens_row depth)
    rw [evalWithin_eq_none hvalue (by rw [row_height]; omega)] at heval
    cases heval
  · rintro ⟨depth, hdepth⟩
    have hrender := hdepth _ _ (ofTokens_row depth)
    rw [renderWithin_eq, row_height, if_neg (by omega)] at hrender
    cases hrender

end Expr

end Lox
