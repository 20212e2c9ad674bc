/-
A tree is evaluated node by node.

The nodes of a tree in post-order can be run from the front, without the tree, on a list of values:
a literal adds its value, and every other node takes its operands from the end of the list and puts
its own value in their place. `Node.run` does this, and stops at the first node that fails on its
operands. What it comes to is what the tree comes to: by `Node.run_postorderOnto` the nodes of a
tree leave its value behind, wherever in a list they stand, or they stop where the evaluation of the
tree does. So the failure of a tree is that of the first node in post-order that fails, and nothing
behind that node has a part in it.

When a node fails is said by `Node.Fails`, without applying its operator: by the operator and by the
types of the operands. The operator may be any token. One that is no operator of its arity fails on
all operands, as a breach; all others fail on operands of wrong types only, with a fault.

The same way of going through the nodes, with trees in place of values, makes the tree again. It is
made of a list of nodes just when they are its own ones in post-order, so they determine the tree.
-/
import Lox.Expr.Postorder
import Lox.Proofs.Typing.Outlines

set_option autoImplicit false

namespace Lox

/-! ## Nodes that fail -/

/-- The operators that ask for two numbers. -/
def Symbol.numeric : List Symbol :=
  [.minus, .slash, .star, .greater, .greaterEqual, .less, .lessEqual]

/-- The node fails on these operands, of which the left one comes first. -/
inductive Node.Fails : Node → List Value → Failure RuntimeFault → Prop
  -- an operator of the wrong arity fails whatever the operands are
  | notUnary {operator : Token} {operand : Value} : ¬ operator.Negates →
      Fails (.unary operator) [operand] (.breach (.notUnary operator.lexeme))
  | notBinary {operator : Token} {left right : Value} : (∀ level, ¬ operator.Joins level) →
      Fails (.binary operator) [left, right] (.breach (.notBinary operator.lexeme))
  | notNumber {operator : Token} {operand : Value} : operator.meaning = .symbol .minus →
      operand.type ≠ .number →
      Fails (.unary operator) [operand]
        (.fault ⟨.notNumber, operator.line, operator.lexeme⟩)
  | notNumbers {operator : Token} {s : Symbol} {left right : Value} :
      operator.meaning = .symbol s → s ∈ Symbol.numeric →
      ¬ (left.type = .number ∧ right.type = .number) →
      Fails (.binary operator) [left, right]
        (.fault ⟨.notNumbers, operator.line, operator.lexeme⟩)
  | notNumbersOrStrings {operator : Token} {left right : Value} :
      operator.meaning = .symbol .plus → ¬ (left.type = .number ∧ right.type = .number) →
      ¬ (left.type = .string ∧ right.type = .string) →
      Fails (.binary operator) [left, right]
        (.fault ⟨.notNumbersOrStrings, operator.line, operator.lexeme⟩)

namespace Token

variable {operator : Token} {failure : Failure RuntimeFault}

/-- A unary operator fails just on the operands that the table lists. -/
theorem applyUnary_eq_error_iff (operand : Value) :
    operator.applyUnary operand = .error failure ↔
      Node.Fails (.unary operator) [operand] failure := by
  unfold applyUnary
  constructor
  · intro hfails
    split at hfails
    · rename_i hminus
      split at hfails
      · cases hfails
      · rename_i hother
        obtain rfl : .fault (.of operator .notNumber) = failure := Except.error.inj hfails
        refine .notNumber hminus ?_
        cases operand <;> simp_all [Value.type]
    · cases hfails
    · rename_i hminus hbang
      obtain rfl : .breach (.notUnary operator.lexeme) = failure := Except.error.inj hfails
      refine .notUnary ?_
      rintro (h | h)
      · exact hminus h
      · exact hbang h
  · intro hfails
    cases hfails with
    | notUnary hnegates =>
      split
      · rename_i hminus
        exact absurd (.inl hminus) hnegates
      · rename_i hbang
        exact absurd (.inr hbang) hnegates
      · rfl
    | notNumber hminus htype =>
      rw [hminus]
      cases operand <;> simp_all [Value.type] <;> rfl

/-- An operation on numbers fails just where one of its operands is none. -/
theorem applyToNumbers_eq_error_iff (operation : Float → Float → Value) (left right : Value) :
    operator.applyToNumbers operation left right = .error failure ↔
      ¬ (left.type = .number ∧ right.type = .number) ∧
        failure = .fault ⟨.notNumbers, operator.line, operator.lexeme⟩ := by
  unfold applyToNumbers
  split
  · exact iff_of_false (fun h => by cases h) fun h => h.1 ⟨rfl, rfl⟩
  · rename_i hother
    have hnot : ¬ (left.type = .number ∧ right.type = .number) := by
      cases left <;> cases right <;> simp_all [Value.type]
    rw [and_iff_right hnot]
    exact ⟨fun h => (Except.error.inj h).symm, fun h => congrArg Except.error h.symm⟩

/-- A binary operator fails just on the operands that the table lists. -/
theorem applyBinary_eq_error_iff (left right : Value) :
    operator.applyBinary left right = .error failure ↔
      Node.Fails (.binary operator) [left, right] failure := by
  constructor
  · intro hfails
    unfold applyBinary at hfails
    split at hfails
    · rename_i hplus
      split at hfails
      · cases hfails
      · cases hfails
      · rename_i hnumbers hstrings
        obtain rfl := Except.error.inj hfails
        apply Node.Fails.notNumbersOrStrings hplus
        · cases left <;> cases right <;> simp_all [Value.type]
        · cases left <;> cases right <;> simp_all [Value.type]
    case h_9 => cases hfails
    case h_10 => cases hfails
    case h_11 =>
      obtain rfl := Except.error.inj hfails
      apply Node.Fails.notBinary
      rintro level ⟨s, hs, hmeaning⟩
      cases level <;> simp [Level.operators] at hs <;> simp_all
    all_goals
      rename_i hmeaning
      rw [applyToNumbers_eq_error_iff] at hfails
      obtain ⟨hnot, rfl⟩ := hfails
      exact .notNumbers hmeaning (by decide) hnot
  · intro hfails
    unfold applyBinary
    cases hfails with
    | notBinary hnone =>
      have hlevel : operator.level? = none := by
        rw [Option.eq_none_iff_forall_ne_some]
        intro level hlevel
        exact hnone level ((level?_eq_some_iff _ _).1 hlevel)
      split
      case h_11 => rfl
      all_goals
        rename_i hmeaning
        simp [level?, hmeaning, Symbol.level?] at hlevel
    | @notNumbers _ s _ _ hmeaning hs hnot =>
      rw [hmeaning]
      have hcases : s = .minus ∨ s = .slash ∨ s = .star ∨ s = .greater ∨ s = .greaterEqual ∨
          s = .less ∨ s = .lessEqual := by simpa [Symbol.numeric] using hs
      rcases hcases with rfl | rfl | rfl | rfl | rfl | rfl | rfl
      all_goals exact (applyToNumbers_eq_error_iff _ _ _).2 ⟨hnot, rfl⟩
    | notNumbersOrStrings hplus hnumbers hstrings =>
      rw [hplus]
      cases left <;> cases right <;> simp_all [Value.type] <;> rfl

end Token

/-! ## Nodes one after the other -/

namespace Node

/-- Applies a node to its operands, the last of the values made so far, and puts its own value in
their place. There is no answer where too few values were made. -/
def apply : Node → List Value → Option (Attempt RuntimeFault (List Value))
  | literal value, made => some (.ok (value :: made))
  | group, inner :: made => some (.ok (inner :: made))
  | unary operator, operand :: made => some ((operator.applyUnary operand).map (· :: made))
  | binary operator, right :: left :: made =>
    some ((operator.applyBinary left right).map (· :: made))
  | _, _ => none

/-- Applies nodes one after the other, up to the first one that fails. -/
def run : List Node → List Value → Option (Attempt RuntimeFault (List Value))
  | [], made => some (.ok made)
  | node :: nodes, made =>
    match node.apply made with
    | some (.ok made) => run nodes made
    | stopped => stopped

/-- The nodes of a tree leave its value on the values made so far, or they stop where the tree
fails. The induction is on the tree, with any nodes behind it. -/
theorem run_postorderOnto (e : Expr) (back : List Node) (made : List Value) :
    run (e.postorderOnto back) made =
      match e.eval with
      | .ok value => run back (value :: made)
      | .error failure => some (.error failure) := by
  induction e generalizing back made with
  | literal value => rfl
  | group inner ih =>
    rw [Expr.postorderOnto, Expr.eval, ih]
    cases inner.eval <;> rfl
  | unary operator operand ih =>
    rw [Expr.postorderOnto, Expr.eval, ih]
    cases operand.eval with
    | error failure => rfl
    | ok value =>
      simp only [run, apply, bind, Except.bind]
      cases operator.applyUnary value <;> rfl
  | binary left operator right ihleft ihright =>
    rw [Expr.postorderOnto, Expr.eval, ihleft]
    cases left.eval with
    | error failure => rfl
    | ok l =>
      simp only [ihright, bind, Except.bind]
      cases right.eval with
      | error failure => rfl
      | ok r =>
        simp only [run, apply]
        cases operator.applyBinary l r <;> rfl

/-- In post-order the nodes of a tree come to what the tree comes to. -/
theorem run_postorder (e : Expr) (made : List Value) :
    run e.postorder made = some (e.eval.map (· :: made)) := by
  rw [Expr.postorder, run_postorderOnto]
  cases e.eval <;> rfl

/-- What stands behind nodes that are all applied is applied to what they leave. -/
theorem run_append {front : List Node} {made left : List Value}
    (hfront : run front made = some (.ok left)) (back : List Node) :
    run (front ++ back) made = run back left := by
  induction front generalizing made with
  | nil =>
    obtain rfl : made = left := by simpa [run] using hfront
    rfl
  | cons node front ih =>
    simp only [run, List.cons_append] at hfront ⊢
    split at hfront
    · exact ih hfront
    · rename_i hstops
      exact absurd hfront (hstops left)

/-- Nodes fail where the first of them fails, and nothing behind it is applied. -/
theorem run_eq_error_iff (nodes : List Node) (made : List Value)
    (failure : Failure RuntimeFault) :
    run nodes made = some (.error failure) ↔
      ∃ front node back left, nodes = front ++ node :: back ∧
        run front made = some (.ok left) ∧ node.apply left = some (.error failure) := by
  constructor
  · intro hfails
    induction nodes generalizing made with
    | nil => simp [run] at hfails
    | cons node nodes ih =>
      rw [run] at hfails
      split at hfails
      · rename_i next hnext
        obtain ⟨front, last, back, left, rfl, hfront, hlast⟩ := ih next hfails
        exact ⟨node :: front, last, back, left, rfl, by rw [run, hnext]; exact hfront, hlast⟩
      · exact ⟨[], node, nodes, made, rfl, rfl, hfails⟩
  · rintro ⟨front, node, back, left, rfl, hfront, hnode⟩
    rw [run_append hfront, run, hnode]

/-- A node fails just where its operands stand at the end of the values and it fails on them. -/
theorem apply_eq_error_iff (node : Node) (made : List Value) (failure : Failure RuntimeFault) :
    node.apply made = some (.error failure) ↔
      ∃ operands rest, made = operands.reverse ++ rest ∧ node.Fails operands failure := by
  constructor
  · intro hfails
    unfold apply at hfails
    split at hfails
    · cases hfails
    · cases hfails
    · rename_i operator operand rest
      refine ⟨[operand], rest, rfl, (Token.applyUnary_eq_error_iff operand).1 ?_⟩
      exact Attempt.map_eq_error_iff.1 (Option.some.inj hfails)
    · rename_i operator right left rest
      refine ⟨[left, right], rest, rfl, (Token.applyBinary_eq_error_iff left right).1 ?_⟩
      exact Attempt.map_eq_error_iff.1 (Option.some.inj hfails)
    · cases hfails
  · rintro ⟨operands, rest, rfl, hfails⟩
    cases node with
    | literal value => cases hfails
    | group => cases hfails
    | unary operator =>
      obtain ⟨operand, rfl⟩ : ∃ operand, operands = [operand] := by cases hfails <;> exact ⟨_, rfl⟩
      have happlied := (Token.applyUnary_eq_error_iff operand).2 hfails
      exact congrArg some (Attempt.map_eq_error_iff.2 happlied)
    | binary operator =>
      obtain ⟨left, right, rfl⟩ : ∃ left right, operands = [left, right] := by
        cases hfails <;> exact ⟨_, _, rfl⟩
      have happlied := (Token.applyBinary_eq_error_iff left right).2 hfails
      exact congrArg some (Attempt.map_eq_error_iff.2 happlied)

/-- The node stands behind nodes that can all be applied, and it fails on its operands, which are
the last of the values that these leave. -/
def FailsBehind (node : Node) (front : List Node) (failure : Failure RuntimeFault) : Prop :=
  ∃ operands rest, run front [] = some (.ok (operands.reverse ++ rest)) ∧
    node.Fails operands failure

end Node

/-! ## Trees -/

namespace Expr

/-! ### A tree from its nodes -/

/-- The nodes of a tree put the tree on the ones made so far. The induction is on the tree, with any
nodes behind it. -/
theorem foldlM_postorderOnto (e : Expr) (back : List Node) (made : List Expr) :
    (e.postorderOnto back).foldlM build? made = back.foldlM build? (e :: made) := by
  induction e generalizing back made with
  | literal value => rfl
  | group inner ih =>
    rw [postorderOnto, ih]
    rfl
  | unary operator operand ih =>
    rw [postorderOnto, ih]
    rfl
  | binary left operator right ihleft ihright =>
    rw [postorderOnto, ihleft, ihright]
    rfl

/-- The nodes of trees that were made, the last tree first, with those of `back` behind them. -/
def nodesOf (made : List Expr) (back : List Node) : List Node :=
  made.foldl (fun back e => e.postorderOnto back) back

/-- A node that is put on trees has their nodes in front of it. -/
theorem nodesOf_of_build? {made next : List Expr} {node : Node}
    (h : build? made node = some next) (back : List Node) :
    nodesOf next back = nodesOf made (node :: back) := by
  unfold build? at h
  split at h
  · obtain rfl := Option.some.inj h
    rfl
  · obtain rfl := Option.some.inj h
    rfl
  · obtain rfl := Option.some.inj h
    rfl
  · obtain rfl := Option.some.inj h
    rfl
  · cases h

/-- No node is lost: what was made holds all of them, in order. The induction is on the nodes. -/
theorem nodesOf_of_foldlM {nodes : List Node} {made last : List Expr}
    (h : nodes.foldlM build? made = some last) : nodesOf last [] = nodesOf made nodes := by
  induction nodes generalizing made with
  | nil =>
    obtain rfl : made = last := Option.some.inj h
    rfl
  | cons node nodes ih =>
    rw [List.foldlM_cons] at h
    obtain ⟨next, hnext, hrest⟩ := Option.bind_eq_some_iff.1 h
    rw [ih hrest, nodesOf_of_build? hnext]

/-- **A list of nodes is a tree in post-order just when the tree is made of it.** So a tree is
determined by its nodes in post-order. -/
theorem ofPostorder?_eq_some_iff (nodes : List Node) (e : Expr) :
    ofPostorder? nodes = some e ↔ e.postorder = nodes := by
  constructor
  · intro h
    unfold ofPostorder? at h
    split at h
    · rename_i found hmade
      obtain rfl := Option.some.inj h
      exact nodesOf_of_foldlM hmade
    · cases h
  · rintro rfl
    rw [ofPostorder?, postorder, foldlM_postorderOnto]
    rfl

/-! ### What a tree comes to -/

/-- The failure of a tree is that of the first node that fails. -/
theorem eval_eq_error_iff (e : Expr) (failure : Failure RuntimeFault) :
    e.eval = .error failure ↔
      ∃ front node back, e.postorder = front ++ node :: back ∧ node.FailsBehind front failure := by
  have hrun : e.eval = .error failure ↔ Node.run e.postorder [] = some (.error failure) := by
    rw [Node.run_postorder, Option.some.injEq, Attempt.map_eq_error_iff]
  rw [hrun, Node.run_eq_error_iff]
  simp only [Node.apply_eq_error_iff, Node.FailsBehind]
  constructor
  · rintro ⟨front, node, back, _, hnodes, hfront, operands, rest, rfl, hnode⟩
    exact ⟨front, node, back, hnodes, operands, rest, hfront, hnode⟩
  · rintro ⟨front, node, back, hnodes, operands, rest, hfront, hnode⟩
    exact ⟨front, node, back, _, hnodes, hfront, operands, rest, rfl, hnode⟩

/-- **Evaluation follows the post-order.** Applied one after the other, the nodes of a tree in
post-order leave its value on whatever values were made before, and they can be all applied just
when the tree has a value. Else its failure is that of the first node that fails on its operands,
and any two trees that have the same nodes up to there come to the same. -/
theorem eval_follows_postorder (e : Expr) :
    (∀ made, Node.run e.postorder made = some (e.eval.map (· :: made))) ∧
    (∀ value, e.eval = .ok value ↔ Node.run e.postorder [] = some (.ok [value])) ∧
    (∀ failure, e.eval = .error failure ↔
      ∃ front node back, e.postorder = front ++ node :: back ∧ node.FailsBehind front failure) ∧
    ∀ (other : Expr) front node back back' failure, e.postorder = front ++ node :: back →
      other.postorder = front ++ node :: back' → node.FailsBehind front failure →
        other.eval = e.eval := by
  refine ⟨Node.run_postorder e, ?_, e.eval_eq_error_iff, ?_⟩
  · intro value
    rw [Node.run_postorder]
    cases e.eval <;> simp [Except.map]
  · intro other front node back back' failure hnodes hnodes' hnode
    have he := (e.eval_eq_error_iff failure).2 ⟨front, node, back, hnodes, hnode⟩
    have hother := (other.eval_eq_error_iff failure).2 ⟨front, node, back', hnodes', hnode⟩
    rw [he, hother]

/-- In `(- nil) ; (true * ,)`, made by hand, the sign is the first of three operators that fail. -/
example :
    (binary (unary ⟨.symbol .minus, "-", 1⟩ (literal .nil)) ⟨.symbol .semicolon, ";", 2⟩
      (unary ⟨.symbol .comma, ",", 3⟩ (literal .nil))).eval =
        .error (.fault ⟨.notNumber, 1, "-"⟩) := rfl

end Expr

end Lox
