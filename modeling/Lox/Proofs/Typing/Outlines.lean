/-
Types decide which evaluations fail.

An outline is a tree of which only the types of its literals are known. It is enough to tell whether
the tree has a value, of which type the value is, and, if there is none, which operation is at fault
and for what reason: equality and negation by `!` are defined on everything, all other operators
ask for operands of certain types and give a result of a certain type, and no operation looks at a
value any closer to decide whether it applies. `Outline.check` makes this decision, and it agrees
with evaluation on every tree whose operators are operators.

The agreement is written `Judged`, and it is kept by doing one thing after the other, so that what
remains to be shown is one statement for the unary and one for the binary operators.
-/
import Lox.Proofs.Contracts

set_option autoImplicit false

namespace Lox

/-! ## Types -/

/-- The types of values. -/
inductive ValueType
  | number | string | bool | nil
  deriving DecidableEq, Repr

/-- The type of a value. -/
def Value.type : Value → ValueType
  | number _ => .number
  | string _ => .string
  | bool _ => .bool
  | nil => .nil

/-- The type of an operation on two numbers, if these are two. -/
def ValueType.ofNumbers? (type : ValueType) : ValueType → ValueType → Option ValueType
  | number, number => some type
  | _, _ => none

namespace Symbol

/-- The type of a unary operation on an operand of this type, if it has one. -/
def unaryType? : Symbol → ValueType → Option ValueType
  | bang, _ => some .bool
  | minus, .number => some .number
  | _, _ => none

/-- The type of a binary operation on operands of these types, if it has one. -/
def binaryType? : Symbol → ValueType → ValueType → Option ValueType
  | bangEqual, _, _ | equalEqual, _, _ => some .bool
  | greater, l, r | greaterEqual, l, r | less, l, r | lessEqual, l, r =>
    ValueType.bool.ofNumbers? l r
  | minus, l, r | slash, l, r | star, l, r => ValueType.number.ofNumbers? l r
  | plus, .number, .number => some .number
  | plus, .string, .string => some .string
  | _, _, _ => none

/-- What is wrong with operands that a binary operation has no type on. -/
def binaryFault : Symbol → OperandFault
  | plus => .notNumbersOrStrings
  | _ => .notNumbers

end Symbol

namespace Token

/-- The type that an operation has, or the fault of having none. -/
def verdict (operator : Token) (cause : OperandFault) :
    Option ValueType → Except RuntimeFault ValueType
  | some type => .ok type
  | none => .error (.of operator cause)

/-- The type of a unary operation, or its fault. -/
def checkUnary (operator : Token) (operand : ValueType) : Except RuntimeFault ValueType :=
  match operator.meaning with
  | .symbol s => operator.verdict .notNumber (s.unaryType? operand)
  | _ => operator.verdict .notNumber none

/-- The type of a binary operation, or its fault. -/
def checkBinary (operator : Token) (left right : ValueType) : Except RuntimeFault ValueType :=
  match operator.meaning with
  | .symbol s => operator.verdict s.binaryFault (s.binaryType? left right)
  | _ => operator.verdict .notNumbers none

end Token

/-! ## Outlines -/

/-- A tree of whose literals only the types are known. -/
inductive Outline
  | literal (type : ValueType)
  | group (inner : Outline)
  | unary (operator : Token) (operand : Outline)
  | binary (left : Outline) (operator : Token) (right : Outline)

/-- The outline of a tree. -/
def Expr.outline : Expr → Outline
  | literal value => .literal value.type
  | group inner => .group inner.outline
  | unary operator operand => .unary operator operand.outline
  | binary left operator right => .binary left.outline operator right.outline

/-- The type of the value that a tree with this outline has, or the first fault on the way to it:
operands before their operator, the left one before the right one. -/
def Outline.check : Outline → Except RuntimeFault ValueType
  | literal type => .ok type
  | group inner => inner.check
  | unary operator operand => do
    let type ← operand.check
    operator.checkUnary type
  | binary left operator right => do
    let l ← left.check
    let r ← right.check
    operator.checkBinary l r

/-- Trees of one outline have the same operators. -/
theorem Expr.Operated.of_outline_eq {e : Expr} (h : e.Operated) :
    ∀ {other : Expr}, e.outline = other.outline → other.Operated := by
  induction e with
  | literal value =>
    intro other hsame
    cases other with
    | literal other => trivial
    | _ => cases hsame
  | group inner ih =>
    intro other hsame
    cases other with
    | group inner' =>
      have hinner : inner.outline = inner'.outline := Outline.group.inj hsame
      have hoperated : inner'.Operated := ih h hinner
      exact hoperated
    | _ => cases hsame
  | unary operator operand ih =>
    intro other hsame
    cases other with
    | unary operator' operand' =>
      obtain ⟨rfl, hoperand⟩ : operator = operator' ∧ operand.outline = operand'.outline :=
        Outline.unary.inj hsame
      exact ⟨h.1, ih h.2 hoperand⟩
    | _ => cases hsame
  | binary left operator right ihleft ihright =>
    intro other hsame
    cases other with
    | binary left' operator' right' =>
      obtain ⟨hleft, rfl, hright⟩ : left.outline = left'.outline ∧ operator = operator' ∧
          right.outline = right'.outline := Outline.binary.inj hsame
      exact ⟨ihleft h.1 hleft, h.2.1, ihright h.2.2 hright⟩
    | _ => cases hsame

/-! ## Judgements -/

/-- The verdict is the type of what the attempt comes to, or its fault. -/
def Judged (attempt : Attempt RuntimeFault Value) (verdict : Except RuntimeFault ValueType) : Prop :=
  Except.map Value.type attempt = verdict.mapError .fault

namespace Judged

variable {attempt : Attempt RuntimeFault Value} {verdict : Except RuntimeFault ValueType}

/-- A judged attempt has a value of the type in the verdict, or the fault in the verdict. -/
theorem cases (h : Judged attempt verdict) :
    (∃ value, attempt = .ok value ∧ verdict = .ok value.type) ∨
      ∃ f, attempt = .error (.fault f) ∧ verdict = .error f := by
  rw [Judged] at h
  cases attempt with
  | ok value =>
    cases verdict with
    | ok type =>
      have htype : value.type = type := Except.ok.inj h
      exact .inl ⟨value, rfl, by rw [htype]⟩
    | error f => cases h
  | error failure =>
    cases verdict with
    | ok type => cases h
    | error f =>
      have hfailure : failure = .fault f := Except.error.inj h
      exact .inr ⟨f, by rw [hfailure], rfl⟩

theorem bind {next : Value → Attempt RuntimeFault Value}
    {next' : ValueType → Except RuntimeFault ValueType} (h : Judged attempt verdict)
    (hnext : ∀ value, Judged (next value) (next' value.type)) :
    Judged (attempt >>= next) (verdict >>= next') := by
  rcases h.cases with ⟨value, rfl, rfl⟩ | ⟨f, rfl, rfl⟩
  · exact hnext value
  · rfl

theorem ok_iff (h : Judged attempt verdict) (type : ValueType) :
    (∃ value, attempt = .ok value ∧ value.type = type) ↔ verdict = .ok type := by
  rcases h.cases with ⟨value, rfl, rfl⟩ | ⟨f, rfl, rfl⟩
  · simp
  · simp

theorem error_iff (h : Judged attempt verdict) (f : RuntimeFault) :
    attempt = .error (.fault f) ↔ verdict = .error f := by
  rcases h.cases with ⟨value, rfl, rfl⟩ | ⟨f', rfl, rfl⟩
  · simp
  · simp

end Judged

/-! ## Operators -/

namespace Token

variable {operator : Token}

theorem applyUnary_judged (h : operator.Negates) (operand : Value) :
    Judged (operator.applyUnary operand) (operator.checkUnary operand.type) := by
  rw [applyUnary.eq_def, checkUnary]
  rcases h with h | h
  · rw [h]
    cases operand <;> rfl
  · rw [h]
    rfl

/-- An operation on numbers has a value on two numbers only, and always of the same type. -/
theorem applyToNumbers_judged {operation : Float → Float → Value} {type : ValueType}
    (htype : ∀ x y, (operation x y).type = type) (left right : Value) :
    Judged (operator.applyToNumbers operation left right)
      (operator.verdict .notNumbers (type.ofNumbers? left.type right.type)) := by
  rw [applyToNumbers.eq_def]
  cases left with
  | number x =>
    cases right with
    | number y =>
      have hvalue : (operation x y).type = type := htype x y
      rw [Judged, ← hvalue]
      rfl
    | _ => rfl
  | _ => rfl

theorem applyBinary_judged {level : Level} (h : operator.Joins level) (left right : Value) :
    Judged (operator.applyBinary left right) (operator.checkBinary left.type right.type) := by
  obtain ⟨s, hs, hmeaning⟩ := h
  rw [applyBinary.eq_def, checkBinary, hmeaning]
  -- the operators one by one: equality judges nothing, and only `+` has two types of its own
  cases level with
  | equality =>
    have hcases : s = .bangEqual ∨ s = .equalEqual := by simpa [Level.operators] using hs
    rcases hcases with rfl | rfl
    · rfl
    · rfl
  | comparison =>
    have hcases : s = .greater ∨ s = .greaterEqual ∨ s = .less ∨ s = .lessEqual := by
      simpa [Level.operators] using hs
    rcases hcases with rfl | rfl | rfl | rfl
    all_goals
      apply applyToNumbers_judged
      intro x y
      rfl
  | term =>
    have hcases : s = .minus ∨ s = .plus := by simpa [Level.operators] using hs
    rcases hcases with rfl | rfl
    · apply applyToNumbers_judged
      intro x y
      rfl
    · cases left <;> cases right <;> rfl
  | factor =>
    have hcases : s = .slash ∨ s = .star := by simpa [Level.operators] using hs
    rcases hcases with rfl | rfl
    all_goals
      apply applyToNumbers_judged
      intro x y
      rfl

end Token

/-! ## Expressions -/

/-- The outline of a tree judges its evaluation. -/
theorem Expr.Operated.eval_judged {e : Expr} (h : e.Operated) : Judged e.eval e.outline.check := by
  induction e with
  | literal value => rfl
  | group inner ih => exact ih h
  | unary operator operand ih =>
    obtain ⟨hnegates, hoperand⟩ := h
    rw [eval, outline, Outline.check]
    exact (ih hoperand).bind (Token.applyUnary_judged hnegates)
  | binary left operator right ihleft ihright =>
    obtain ⟨hleft, ⟨level, hjoins⟩, hright⟩ := h
    rw [eval, outline, Outline.check]
    apply (ihleft hleft).bind
    intro l
    apply (ihright hright).bind
    intro r
    exact Token.applyBinary_judged hjoins l r

end Lox
