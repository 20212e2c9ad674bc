/-
The trees of the grammar, and the tokens they are written with.

The readers of `Lox.Expr.Grammar` say how a tree is found; this file says, without them, which
trees there are to be found. A tree is *canonical* when its operators are operators and it could
have been written without further parentheses: the left operand of a binary operation holds
together at least as tightly as the operation itself, the right one strictly more tightly. A tree
is *written* by a list of tokens when these are its nodes from left to right. The operators are
kept as the tokens they were, so they have to be the very same; of a literal and of a parenthesis
only the meaning is left, so their lexemes and lines are free.

Neither notion bounds the nesting. `Expr.nesting` measures it, and `Expr.DerivesFrom` puts the
three together.
-/
import Lox.Expr.Grammar

set_option autoImplicit false

namespace Lox

/-! ## The ladder of levels -/

/-- The step of a level on the ladder, the loosest level lowest. -/
def Level.rank : Level → Nat
  | equality => 0
  | comparison => 1
  | term => 2
  | factor => 3

/-- The step above all levels, where the operands stand. -/
def operandRank : Nat := 4

/-- The operators of a level. -/
def Level.operators : Level → List Symbol
  | equality => [.bangEqual, .equalEqual]
  | comparison => [.greater, .greaterEqual, .less, .lessEqual]
  | term => [.minus, .plus]
  | factor => [.slash, .star]

namespace Token

/-- The token is a binary operator of the level. -/
def Joins (t : Token) (level : Level) : Prop :=
  ∃ s ∈ level.operators, t.meaning = .symbol s

/-- The token is a unary operator. -/
def Negates (t : Token) : Prop :=
  t.meaning = .symbol .minus ∨ t.meaning = .symbol .bang

end Token

/-! ## Canonical trees -/

namespace Expr

/-- The tree holds together at least as tightly as the operations of a step of the ladder. Only a
binary operation can be looser than an operand. -/
def BindsAt (rank : Nat) : Expr → Prop
  | binary _ operator _ => ∃ level, operator.Joins level ∧ rank ≤ level.rank
  | _ => True

/-- The tree is one that the grammar has. -/
inductive Canonical : Expr → Prop
  | literal (value : Value) : Canonical (literal value)
  | group {inner : Expr} : Canonical inner → Canonical (group inner)
  | unary {operator : Token} {operand : Expr} : operator.Negates →
      Canonical operand → operand.BindsAt operandRank → Canonical (unary operator operand)
  -- the left operand may be an operation of the same level, the right one may not
  | binary {left right : Expr} {operator : Token} {level : Level} : operator.Joins level →
      Canonical left → left.BindsAt level.rank →
      Canonical right → right.BindsAt (level.rank + 1) → Canonical (binary left operator right)

/-- The largest number of parentheses and unary operators around one place of the tree. -/
def nesting : Expr → Nat
  | literal _ => 0
  | group inner => inner.nesting + 1
  | unary _ operand => operand.nesting + 1
  | binary left _ right => max left.nesting right.nesting

end Expr

/-! ## Written trees -/

/-- The meaning of the token that stands for a literal. -/
def Value.meaning : Value → Meaning
  | number x => .number x
  | string text => .string text
  | bool true => .keyword .true_
  | bool false => .keyword .false_
  | nil => .keyword .nil_

namespace Expr

/-- The tokens are the nodes of the tree from left to right. -/
inductive WrittenBy : Expr → List Token → Prop
  -- of a literal and of a parenthesis the meaning is all that the tree keeps
  | literal {value : Value} {t : Token} : t.meaning = value.meaning →
      WrittenBy (literal value) [t]
  | group {inner : Expr} {first last : Token} {body : List Token} :
      first.meaning = .symbol .leftParen → WrittenBy inner body →
      last.meaning = .symbol .rightParen → WrittenBy (group inner) (first :: body ++ [last])
  -- an operator is in the tree as the token it was
  | unary {operator : Token} {operand : Expr} {body : List Token} :
      WrittenBy operand body → WrittenBy (unary operator operand) (operator :: body)
  | binary {left right : Expr} {operator : Token} {front back : List Token} :
      WrittenBy left front → WrittenBy right back →
      WrittenBy (binary left operator right) (front ++ operator :: back)

/-- The tree derives from the tokens: it is canonical, not nested too deeply, and written by
them. -/
structure DerivesFrom (e : Expr) (tokens : List Token) : Prop where
  canonical : e.Canonical
  shallow : e.nesting < maxNesting
  written : e.WrittenBy tokens

end Expr

/-! ## What the tokens of the model say -/

/-- The table of levels and the lists of operators are the same. -/
theorem Symbol.level?_eq_some_iff (s : Symbol) (level : Level) :
    s.level? = some level ↔ s ∈ level.operators := by
  cases level <;> cases s <;> decide

namespace Token

theorem level?_eq_some_iff (t : Token) (level : Level) :
    t.level? = some level ↔ t.Joins level := by
  rw [level?, Joins]
  cases hmeaning : t.meaning with
  | symbol s => simp [Symbol.level?_eq_some_iff]
  | _ => simp

/-- A token joins at one level only. -/
theorem Joins.level_unique {t : Token} {one other : Level} (hone : t.Joins one)
    (hother : t.Joins other) : one = other := by
  rw [← level?_eq_some_iff] at hone hother
  exact Option.some.inj (hone.symm.trans hother)

theorem isUnary_iff (t : Token) : t.isUnary = true ↔ t.Negates := by
  rw [isUnary, Negates]
  cases hmeaning : t.meaning with
  | symbol s => cases s <;> simp
  | _ => simp

theorem literal?_eq_some_iff (t : Token) (value : Value) :
    t.literal? = some value ↔ t.meaning = value.meaning := by
  rw [literal?]
  cases hmeaning : t.meaning with
  | keyword k => cases k <;> rcases value with _ | _ | (_ | _) | _ <;> simp [Value.meaning]
  | _ => rcases value with _ | _ | (_ | _) | _ <;> simp [Value.meaning]

/-- For a kind without a payload, the kind is the whole meaning. -/
theorem kind_eq_symbol_iff (t : Token) (s : Symbol) :
    t.kind = .symbol s ↔ t.meaning = .symbol s := by
  rw [kind]
  cases t.meaning <;> simp [Meaning.kind]

theorem kind_eq_keyword_iff (t : Token) (k : Keyword) :
    t.kind = .keyword k ↔ t.meaning = .keyword k := by
  rw [kind]
  cases t.meaning <;> simp [Meaning.kind]

theorem isEnding_eq_false (t : Token) (h : t.meaning ≠ .ending) : t.isEnding = false := by
  rw [isEnding, kind, decide_eq_false_iff_not]
  cases hmeaning : t.meaning <;> simp_all [Meaning.kind]

end Token

/-! ## Steps of the ladder -/

theorem Level.rank_lt (level : Level) : level.rank < operandRank := by
  cases level <;> decide

theorem Level.rank_injective {one other : Level} (h : one.rank = other.rank) : one = other := by
  cases one <;> cases other <;> first | rfl | cases h

namespace Expr

theorem BindsAt.weaken {e : Expr} {low high : Nat} (h : e.BindsAt high) (hle : low ≤ high) :
    e.BindsAt low := by
  cases e with
  | binary left operator right =>
    obtain ⟨level, hjoins, hrank⟩ := h
    exact ⟨level, hjoins, Nat.le_trans hle hrank⟩
  | _ => trivial

/-- Every canonical tree binds at the lowest step. -/
theorem Canonical.bindsAt_zero {e : Expr} (h : e.Canonical) : e.BindsAt 0 := by
  cases h with
  | binary hjoins _ _ _ _ => exact ⟨_, hjoins, Nat.zero_le _⟩
  | _ => trivial

/-- A tree is never written by no tokens; the first one is a sign, a parenthesis or a literal. -/
theorem WrittenBy.head {e : Expr} {tokens : List Token} (h : e.WrittenBy tokens)
    (hcanonical : e.Canonical) :
    ∃ t rest, tokens = t :: rest ∧
      (t.Negates ∨ t.meaning = .symbol .leftParen ∨ ∃ value : Value, t.meaning = value.meaning) := by
  induction h with
  | literal hmeaning => exact ⟨_, _, rfl, .inr (.inr ⟨_, hmeaning⟩)⟩
  | group hfirst _ _ _ => exact ⟨_, _, rfl, .inr (.inl hfirst)⟩
  | unary _ _ =>
    cases hcanonical with
    | unary hnegates _ _ => exact ⟨_, _, rfl, .inl hnegates⟩
  | binary _ _ ihleft _ =>
    cases hcanonical with
    | binary _ hleft _ _ _ =>
      obtain ⟨t, rest, rfl, hstart⟩ := ihleft hleft
      exact ⟨t, _, rfl, hstart⟩

/-- No tree has an end marker among its tokens. -/
theorem WrittenBy.isEnding_eq_false {e : Expr} {tokens : List Token} (h : e.WrittenBy tokens)
    (hcanonical : e.Canonical) : ∀ t ∈ tokens, t.isEnding = false := by
  -- an operator in a tree made by hand could be any token; in a canonical one it is an operator
  induction h with
  | @literal value u hmeaning =>
    intro t ht
    rw [List.mem_singleton.1 ht, u.isEnding_eq_false]
    rw [hmeaning]
    rcases value with _ | _ | (_ | _) | _ <;> simp [Value.meaning]
  | @group inner first last body hfirst _ hlast ih =>
    intro t ht
    cases hcanonical with
    | group hinner =>
      rcases List.mem_cons.1 ht with rfl | ht
      · exact t.isEnding_eq_false (by simp [hfirst])
      rcases List.mem_append.1 ht with ht | ht
      · exact ih hinner t ht
      · rw [List.mem_singleton.1 ht, last.isEnding_eq_false (by simp [hlast])]
  | @unary operator operand body _ ih =>
    intro t ht
    cases hcanonical with
    | unary hnegates hoperand _ =>
      rcases List.mem_cons.1 ht with rfl | ht
      · exact t.isEnding_eq_false (by rcases hnegates with h | h <;> simp [h])
      · exact ih hoperand t ht
  | @binary left right operator front back _ _ ihleft ihright =>
    intro t ht
    cases hcanonical with
    | binary hjoins hleft _ hright _ =>
      rcases List.mem_append.1 ht with ht | ht
      · exact ihleft hleft t ht
      rcases List.mem_cons.1 ht with rfl | ht
      · obtain ⟨s, -, hmeaning⟩ := hjoins
        exact t.isEnding_eq_false (by simp [hmeaning])
      · exact ihright hright t ht

end Expr

end Lox
