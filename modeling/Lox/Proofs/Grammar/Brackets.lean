/-
Every tree can be written down.

Not every tree is one of the grammar: made by hand, a sum may be an operand of a product without a
pair of parentheses around it. Written with parentheses around the operands of every operation,
though, each tree whose operators are operators has tokens that are read, and what is read differs
from it in parentheses only. Since a pair of parentheses comes to what is inside it, value or fault,
the meaning of the tree is not lost.

The tokens are described by `Expr.BracketedBy`, with any lexemes and lines for literals and
parentheses, and the tree that they are read as is `Expr.bracketed`. It is canonical whatever the
tree was, because all operands in it hold together as operands do; it only may be nested too deeply.
-/
import Lox.Proofs.Contracts

set_option autoImplicit false

namespace Lox.Expr

/-! ## Parentheses around all operands -/

/-- The tokens of a tree written with parentheses around the operands of its operations. -/
inductive BracketedBy : Expr → List Token → Prop
  | literal {value : Value} {t : Token} : t.meaning = value.meaning →
      BracketedBy (literal value) [t]
  | group {inner : Expr} {first last : Token} {body : List Token} :
      first.meaning = .symbol .leftParen → BracketedBy inner body →
      last.meaning = .symbol .rightParen → BracketedBy (group inner) (first :: body ++ [last])
  | unary {operator first last : Token} {operand : Expr} {body : List Token} :
      first.meaning = .symbol .leftParen → BracketedBy operand body →
      last.meaning = .symbol .rightParen →
      BracketedBy (unary operator operand) (operator :: (first :: body ++ [last]))
  | binary {left right : Expr} {operator first last first' last' : Token}
      {front back : List Token} :
      first.meaning = .symbol .leftParen → BracketedBy left front →
      last.meaning = .symbol .rightParen →
      first'.meaning = .symbol .leftParen → BracketedBy right back →
      last'.meaning = .symbol .rightParen →
      BracketedBy (binary left operator right)
        ((first :: front ++ [last]) ++ operator :: (first' :: back ++ [last']))

/-- The tree with parentheses around the operands of its operations. -/
def bracketed : Expr → Expr
  | literal value => literal value
  | group inner => group inner.bracketed
  | unary operator operand => unary operator (group operand.bracketed)
  | binary left operator right => binary (group left.bracketed) operator (group right.bracketed)

/-- The tree without its parentheses. -/
def ungrouped : Expr → Expr
  | literal value => literal value
  | group inner => inner.ungrouped
  | unary operator operand => unary operator operand.ungrouped
  | binary left operator right => binary left.ungrouped operator right.ungrouped

/-- Every tree can be written so. -/
theorem exists_bracketedBy (e : Expr) : ∃ tokens, e.BracketedBy tokens := by
  have hleft : (⟨.symbol .leftParen, "(", 1⟩ : Token).meaning = .symbol .leftParen := rfl
  have hright : (⟨.symbol .rightParen, ")", 1⟩ : Token).meaning = .symbol .rightParen := rfl
  induction e with
  | literal value =>
    have hvalue : (⟨value.meaning, value.literalText, 1⟩ : Token).meaning = value.meaning := rfl
    exact ⟨_, .literal hvalue⟩
  | group inner ih =>
    obtain ⟨body, hbody⟩ := ih
    exact ⟨_, .group hleft hbody hright⟩
  | unary operator operand ih =>
    obtain ⟨body, hbody⟩ := ih
    exact ⟨_, .unary hleft hbody hright⟩
  | binary left operator right ihleft ihright =>
    obtain ⟨front, hfront⟩ := ihleft
    obtain ⟨back, hback⟩ := ihright
    exact ⟨_, .binary hleft hfront hright hleft hback hright⟩

/-- What is written so are the nodes of the tree with the parentheses in it. -/
theorem BracketedBy.written {e : Expr} {tokens : List Token} (h : e.BracketedBy tokens) :
    e.bracketed.WrittenBy tokens := by
  induction h with
  | literal hmeaning => exact .literal hmeaning
  | group hfirst _ hlast ih => exact .group hfirst ih hlast
  | unary hfirst _ hlast ih => exact .unary (.group hfirst ih hlast)
  | binary hfirst _ hlast hfirst' _ hlast' ihleft ihright =>
    exact .binary (.group hfirst ihleft hlast) (.group hfirst' ihright hlast')

/-- With parentheses around all operands, a tree needs no further ones. -/
theorem Operated.bracketed_canonical {e : Expr} (h : e.Operated) : e.bracketed.Canonical := by
  induction e with
  | literal value => exact .literal value
  | group inner ih =>
    have hinner : inner.Operated := h
    exact .group (ih hinner)
  | unary operator operand ih =>
    obtain ⟨hnegates, hoperand⟩ := h
    exact .unary hnegates (.group (ih hoperand)) trivial
  | binary left operator right ihleft ihright =>
    obtain ⟨hleft, ⟨level, hjoins⟩, hright⟩ := h
    exact .binary hjoins (.group (ihleft hleft)) trivial (.group (ihright hright)) trivial

/-! ## What parentheses leave as it is -/

theorem ungrouped_bracketed (e : Expr) : e.bracketed.ungrouped = e.ungrouped := by
  induction e with
  | literal value => rfl
  | group inner ih =>
    rw [bracketed, ungrouped, ungrouped, ih]
  | unary operator operand ih =>
    rw [bracketed, ungrouped, ungrouped, ungrouped, ih]
  | binary left operator right ihleft ihright =>
    rw [bracketed, ungrouped, ungrouped, ungrouped, ungrouped, ihleft, ihright]

/-- Parentheses have no part in evaluation, wherever they are. -/
theorem eval_ungrouped (e : Expr) : e.ungrouped.eval = e.eval := by
  induction e with
  | literal value => rfl
  | group inner ih =>
    rw [ungrouped, eval, ih]
  | unary operator operand ih =>
    rw [ungrouped, eval, eval, ih]
  | binary left operator right ihleft ihright =>
    rw [ungrouped, eval, eval, ihleft, ihright]

/-- Trees that differ in parentheses only come to the same. -/
theorem eval_eq_of_ungrouped_eq {e other : Expr} (h : e.ungrouped = other.ungrouped) :
    e.eval = other.eval := by
  rw [← eval_ungrouped e, ← eval_ungrouped other, h]

/-- **Every tree can be written down.** A tree whose operators are operators can be written with
parentheses around the operands of its operations, and unless that nests it too deeply, the tokens
are read, in front of an end marker, as a tree that is the same without parentheses and comes to the
same: the same value, or the same fault of the same operator. -/
theorem ofTokens_bracketed (e : Expr) (hoperated : e.Operated) :
    (∃ tokens, e.BracketedBy tokens) ∧
      ∀ tokens marker, e.BracketedBy tokens → marker.isEnding = true →
        e.bracketed.nesting < maxNesting →
        ∃ e', Expr.ofTokens (tokens ++ [marker]) = .ok e' ∧ e'.ungrouped = e.ungrouped ∧
          e'.eval = e.eval := by
  refine ⟨exists_bracketedBy e, ?_⟩
  intro tokens marker hbracketed hmarker hshallow
  have hcanonical := hoperated.bracketed_canonical
  have hwritten := hbracketed.written
  have hread : Expr.readAll tokens = .ok e.bracketed :=
    (Expr.readAll_eq_ok_iff tokens e.bracketed).2 ⟨hcanonical, hshallow, hwritten⟩
  have hterminated : Terminated [marker] := ⟨marker, rfl, hmarker⟩
  have hungrouped := ungrouped_bracketed e
  refine ⟨e.bracketed, ?_, hungrouped, eval_eq_of_ungrouped_eq hungrouped⟩
  rw [Expr.ofTokens_append (hwritten.isEnding_eq_false hcanonical) hmarker hterminated, hread]
  rfl

/-- The product of a sum of two texts, without parentheses in the tree, and the negative of `nil`:
the fault of the negation is found again on its own line. -/
theorem ofTokens_bracketed_product_of_sum :
    let plus : Token := ⟨.symbol .plus, "+", 1⟩
    let star : Token := ⟨.symbol .star, "*", 2⟩
    let minus : Token := ⟨.symbol .minus, "-", 3⟩
    let opening : Token := ⟨.symbol .leftParen, "(", 1⟩
    let closing : Token := ⟨.symbol .rightParen, ")", 3⟩
    let text : Token := ⟨.string "a", "\"a\"", 1⟩
    let tree : Expr := .binary (.binary (.literal (.string "a")) plus (.literal (.string "a"))) star
      (.unary minus (.literal .nil))
    let tokens : List Token :=
      [opening, opening, text, closing, plus, opening, text, closing, closing, star, opening, minus,
        opening, ⟨.keyword .nil_, "nil", 3⟩, closing, closing]
    tree.Operated ∧ ∃ e', Expr.ofTokens (tokens ++ [.endMarker 3]) = .ok e' ∧
      e'.ungrouped = tree ∧ e'.eval = .error (.fault ⟨.notNumber, 3, "-"⟩) := by
  intro plus star minus opening closing text tree tokens
  have hoperated : tree.Operated :=
    ⟨⟨trivial, ⟨.term, .plus, by decide, rfl⟩, trivial⟩, ⟨.factor, .star, by decide, rfl⟩,
      .inl rfl, trivial⟩
  have htext : (Expr.literal (.string "a")).BracketedBy [text] := .literal rfl
  have hnil : (Expr.literal .nil).BracketedBy [⟨.keyword .nil_, "nil", 3⟩] := .literal rfl
  have hbracketed : tree.BracketedBy tokens :=
    .binary rfl (.binary rfl htext rfl rfl htext rfl) rfl rfl (.unary rfl hnil rfl) rfl
  obtain ⟨e', hread, hungrouped, heval⟩ :=
    (ofTokens_bracketed tree hoperated).2 tokens (.endMarker 3) hbracketed rfl (by decide)
  exact ⟨hoperated, e', hread, hungrouped, heval⟩

end Lox.Expr
