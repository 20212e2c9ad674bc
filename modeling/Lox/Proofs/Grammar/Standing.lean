/-
Where a reading stands.

The grammar can be followed from left to right with little memory. At every place it is enough to
know whether an operand has to begin there or has just ended, and what is open around the place:
pairs of parentheses, and unary operators whose operand has not ended. There are no levels in this
account and no trees, since binary operators of all levels go between two operands.

A `Course` is such an account of all that can be read. One token leads from a state to the next one
or nowhere, so what stands in front of a place determines the state there. The bound on the nesting
is kept apart: it forbids to go on where an operand has to begin and too much is open, and
`Course.walk?` is the course under it.

What is said about courses here has nothing to do with the readers: a walk never has more around it
than the bound, and from where an operand may still begin or has just ended there is always a way
to a complete text. The readers are compared with their courses in `Lox.Proofs.Grammar.Following`.
-/
import Lox.Proofs.Grammar.Statements

set_option autoImplicit false

namespace Lox

/-! ## In an expression -/

/-- What may be open around a place. A sign is a unary operator that waits for its operand. -/
inductive Enclosure
  | parentheses
  | sign
  deriving DecidableEq, Repr

/-- What is left open where an operand ends: the signs in front of it end with it. -/
def settle (around : List Enclosure) : List Enclosure :=
  around.dropWhile (· = .sign)

/-- A place in an expression, with what is open around it, the innermost first. -/
inductive Standing
  /-- An operand has to begin here. -/
  | before (around : List Enclosure)
  /-- An operand ends here. -/
  | behind (around : List Enclosure)
  deriving DecidableEq, Repr

namespace Standing

/-- What is open around the place. -/
def around : Standing → List Enclosure
  | before around => around
  | behind around => around

/-- The place behind a token that may stand here. -/
def next? (standing : Standing) (t : Token) : Option Standing :=
  match standing with
  | before around =>
    if t.isUnary then some (before (.sign :: around))
    else if t.kind = .symbol .leftParen then some (before (.parentheses :: around))
    else if t.literal?.isSome then some (behind (settle around))
    else none
  | behind around =>
    if t.level?.isSome then some (before around)
    else
      match around with
      | .parentheses :: outer =>
        if t.kind = .symbol .rightParen then some (behind (settle outer)) else none
      | _ => none

/-- The place may be left: an operand begins only with less than this open around it. -/
def isWithin (bound : Nat) : Standing → Bool
  | before around => around.length < bound
  | behind _ => true

/-- What is wrong where no token fits: an operand is missing, or the parenthesis that ends a pair,
or, where nothing is open, what has to follow the expression. -/
def fault (missing : SyntaxFault) : Standing → SyntaxFault
  | before _ => .expectedExpression
  | behind around => if .parentheses ∈ around then .missingRightParen else missing

/-- The fault under a bound on the nesting, which comes before all others. -/
def faultWithin (bound : Nat) (missing : SyntaxFault) (standing : Standing) : SyntaxFault :=
  if standing.isWithin bound then standing.fault missing else .tooDeeplyNested

end Standing

/-! ## Courses -/

/-- An account of what can be read from left to right: where it begins, the state behind a token,
where it may end, and the place in an expression that a state is. Where the expression is complete
there, the last field says what is missing. -/
structure Course (σ : Type) where
  start : σ
  next? : σ → Token → Option σ
  standing : σ → Standing
  Complete : σ → Prop
  missing : σ → SyntaxFault

namespace Course

variable {σ : Type} (c : Course σ) (bound : Nat)

/-- The state behind these tokens. -/
def at? (front : List Token) : Option σ :=
  front.foldlM c.next? c.start

/-- The state behind a token, under a bound on the nesting. -/
def step? (s : σ) (t : Token) : Option σ :=
  if (c.standing s).isWithin bound then c.next? s t else none

/-- The state behind these tokens, under a bound on the nesting. -/
def walk? (s : σ) (tokens : List Token) : Option σ :=
  tokens.foldlM (c.step? bound) s

variable {c bound} {s s' : σ} {front back : List Token}

theorem walk?_append :
    c.walk? bound s (front ++ back) = (c.walk? bound s front).bind (c.walk? bound · back) :=
  List.foldlM_append

theorem walk?_cons (t : Token) :
    c.walk? bound s (t :: back) = (c.step? bound s t).bind (c.walk? bound · back) := by
  rw [walk?, List.foldlM_cons]
  rfl

theorem walk?_trans {s'' : σ} (hfront : c.walk? bound s front = some s')
    (hback : c.walk? bound s' back = some s'') : c.walk? bound s (front ++ back) = some s'' := by
  rw [walk?_append, hfront, Option.bind_some, hback]

theorem walk?_cons_of_step? {s'' : σ} {t : Token} (hstep : c.step? bound s t = some s')
    (hback : c.walk? bound s' back = some s'') : c.walk? bound s (t :: back) = some s'' := by
  rw [walk?_cons, hstep, Option.bind_some, hback]

/-- A walk to behind some tokens comes through the place behind the first of them. -/
theorem walk?_left (h : c.walk? bound s (front ++ back) = some s') :
    ∃ middle, c.walk? bound s front = some middle ∧ c.walk? bound middle back = some s' := by
  rw [walk?_append, Option.bind_eq_some_iff] at h
  exact h

/-- What every step keeps, a walk keeps. -/
theorem walk?_keeps {P : σ → Prop}
    (hstep : ∀ s t s', P s → c.step? bound s t = some s' → P s') {tokens : List Token} :
    ∀ {s}, P s → c.walk? bound s tokens = some s' → P s' := by
  induction tokens with
  | nil =>
    intro s hs hwalk
    rw [← Option.some.inj hwalk]
    exact hs
  | cons t tokens ih =>
    intro s hs hwalk
    rw [walk?_cons, Option.bind_eq_some_iff] at hwalk
    obtain ⟨middle, hmiddle, hwalk⟩ := hwalk
    exact ih (hstep s t middle hs hmiddle) hwalk

theorem next?_of_step? {t : Token} (h : c.step? bound s t = some s') :
    (c.standing s).isWithin bound = true ∧ c.next? s t = some s' := by
  rw [step?] at h
  by_cases hwithin : (c.standing s).isWithin bound = true
  · rw [if_pos hwithin] at h
    exact ⟨hwithin, h⟩
  · rw [if_neg hwithin] at h
    cases h

theorem step?_of_next? {t : Token} (hwithin : (c.standing s).isWithin bound = true)
    (h : c.next? s t = some s') : c.step? bound s t = some s' := by
  rw [step?, if_pos hwithin, h]

/-- The bound decides how far a walk goes, not where it comes to. -/
theorem at?_of_walk? (h : c.walk? bound c.start front = some s) : c.at? front = some s := by
  rw [at?]
  generalize c.start = first at h
  induction front generalizing first with
  | nil => exact h
  | cons t front ih =>
    rw [walk?_cons, Option.bind_eq_some_iff] at h
    obtain ⟨middle, hmiddle, hwalk⟩ := h
    rw [List.foldlM_cons, (next?_of_step? hmiddle).2]
    exact ih middle hwalk

end Course

/-! ## The course of expressions -/

theorem settle_of_sign (around : List Enclosure) :
    settle (.sign :: around) = settle around := by
  rw [settle, List.dropWhile_cons_of_pos (by decide)]
  rfl

theorem settle_of_parentheses (around : List Enclosure) :
    settle (.parentheses :: around) = .parentheses :: around := by
  rw [settle, List.dropWhile_cons_of_neg (by decide)]

theorem settle_length_le (around : List Enclosure) : (settle around).length ≤ around.length :=
  (List.dropWhile_suffix _).length_le

/-- Nothing is left open, or a pair of parentheses is the innermost of what is. -/
theorem settle_cases (around : List Enclosure) :
    settle around = [] ∨ ∃ outer, settle around = .parentheses :: outer := by
  induction around with
  | nil => exact .inl rfl
  | cons enclosure around ih =>
    cases enclosure with
    | parentheses => exact .inr ⟨around, settle_of_parentheses around⟩
    | sign =>
      rw [settle_of_sign]
      exact ih

theorem settle_settle (around : List Enclosure) : settle (settle around) = settle around := by
  rcases settle_cases around with h | ⟨outer, h⟩
  · rw [h]
    rfl
  · rw [h, settle_of_parentheses]

/-- Expressions begin with an operand and end behind one, with nothing open. -/
def Expr.course : Course Standing where
  start := .before []
  next? := Standing.next?
  standing := id
  Complete st := st = .behind []
  missing _ := .expectedEndOfExpression

namespace Standing

variable {bound : Nat} {around : List Enclosure} {t : Token}

/-! ### Single steps -/

theorem step?_of_next? {standing standing' : Standing}
    (hwithin : standing.isWithin bound = true) (h : standing.next? t = some standing') :
    Expr.course.step? bound standing t = some standing' :=
  Course.step?_of_next? hwithin h

theorem next?_of_step? {standing standing' : Standing}
    (h : Expr.course.step? bound standing t = some standing') :
    standing.isWithin bound = true ∧ standing.next? t = some standing' :=
  Course.next?_of_step? h

theorem step?_eq_none {standing : Standing} (h : standing.next? t = none) :
    Expr.course.step? bound standing t = none := by
  have hnext : Expr.course.next? standing t = none := h
  rw [Course.step?, hnext, ite_self]

theorem step?_sign (hwithin : around.length < bound) (hunary : t.isUnary = true) :
    Expr.course.step? bound (before around) t = some (before (.sign :: around)) := by
  refine step?_of_next? (decide_eq_true hwithin) ?_
  rw [next?, if_pos hunary]

theorem step?_leftParen (hwithin : around.length < bound) (hunary : ¬ t.isUnary = true)
    (hparen : t.kind = .symbol .leftParen) :
    Expr.course.step? bound (before around) t = some (before (.parentheses :: around)) := by
  refine step?_of_next? (decide_eq_true hwithin) ?_
  rw [next?, if_neg hunary, if_pos hparen]

theorem step?_literal (hwithin : around.length < bound) (hunary : ¬ t.isUnary = true)
    (hparen : ¬ t.kind = .symbol .leftParen) (hliteral : t.literal?.isSome = true) :
    Expr.course.step? bound (before around) t = some (behind (settle around)) := by
  refine step?_of_next? (decide_eq_true hwithin) ?_
  rw [next?, if_neg hunary, if_neg hparen, if_pos hliteral]

/-- Nothing but the three of them begins an operand. -/
theorem step?_before_eq_none (hunary : ¬ t.isUnary = true)
    (hparen : ¬ t.kind = .symbol .leftParen) (hliteral : t.literal? = none) :
    Expr.course.step? bound (before around) t = none := by
  apply step?_eq_none
  rw [next?, if_neg hunary, if_neg hparen, hliteral]
  rfl

theorem step?_operator (hlevel : t.level?.isSome = true) :
    Expr.course.step? bound (behind around) t = some (before around) := by
  refine step?_of_next? rfl ?_
  rw [next?.eq_def]
  simp only
  rw [if_pos hlevel]

theorem step?_rightParen (hparen : t.kind = .symbol .rightParen) :
    Expr.course.step? bound (behind (.parentheses :: around)) t =
      some (behind (settle around)) := by
  have hlevel : ¬ t.level?.isSome = true := by
    rw [Token.level?, (t.kind_eq_symbol_iff _).1 hparen]
    exact Bool.false_ne_true
  refine step?_of_next? rfl ?_
  rw [next?, if_neg hlevel, if_pos hparen]

/-- Behind an operand nothing fits but a binary operator and the end of a pair of parentheses. -/
theorem step?_behind_eq_none (hlevel : t.level? = none)
    (hparen : (∃ outer, around = .parentheses :: outer) → ¬ t.kind = .symbol .rightParen) :
    Expr.course.step? bound (behind around) t = none := by
  have hlevel' : ¬ t.level?.isSome = true := by simp [hlevel]
  apply step?_eq_none
  rw [next?.eq_def]
  simp only
  rw [if_neg hlevel']
  split
  · exact if_neg (hparen ⟨_, rfl⟩)
  · rfl

/-- A semicolon goes on with no expression. -/
theorem next?_semicolon (standing : Standing) (hkind : t.kind = .symbol .semicolon) :
    standing.next? t = none := by
  have hmeaning := (t.kind_eq_symbol_iff _).1 hkind
  cases standing with
  | before around => simp [next?, Token.isUnary, Token.literal?, hmeaning, hkind]
  | behind around =>
    have hlevel : ¬ t.level?.isSome = true := by simp [Token.level?, hmeaning, Symbol.level?]
    rw [next?.eq_def]
    simp only
    rw [if_neg hlevel]
    split
    · exact if_neg (by simp [hkind])
    · rfl

/-! ### What a walk keeps -/

/-- No more is open around the place than the bound, and behind an operand no sign is. -/
structure Sound (bound : Nat) (standing : Standing) : Prop where
  bounded : standing.around.length ≤ bound
  settled : ∀ around, standing = behind around → settle around = around

theorem sound_start (bound : Nat) : (before []).Sound bound where
  bounded := Nat.zero_le bound
  settled := by
    rintro around ⟨⟩

theorem sound_behind_settle (h : around.length ≤ bound) :
    (behind (settle around)).Sound bound where
  bounded := Nat.le_trans (settle_length_le around) h
  settled := by
    rintro _ ⟨⟩
    exact settle_settle around

theorem sound_before (h : around.length ≤ bound) : (before around).Sound bound where
  bounded := h
  settled := by
    rintro _ ⟨⟩

/-- A token opens at most one thing, and only where less than the bound is open. -/
theorem Sound.step {standing standing' : Standing} (hsound : standing.Sound bound)
    (hstep : Expr.course.step? bound standing t = some standing') : standing'.Sound bound := by
  obtain ⟨hwithin, hnext⟩ := next?_of_step? hstep
  rw [next?.eq_def] at hnext
  cases standing with
  | before around =>
    -- a sign and a parenthesis take up the room that is left, and a literal takes up none
    have hlt : around.length < bound := of_decide_eq_true hwithin
    simp only at hnext
    split at hnext
    · obtain rfl := Option.some.inj hnext
      exact sound_before hlt
    · split at hnext
      · obtain rfl := Option.some.inj hnext
        exact sound_before hlt
      · split at hnext
        · obtain rfl := Option.some.inj hnext
          exact sound_behind_settle (Nat.le_of_lt hlt)
        · cases hnext
  | behind around =>
    have hle : around.length ≤ bound := hsound.bounded
    simp only at hnext
    split at hnext
    · obtain rfl := Option.some.inj hnext
      exact sound_before hle
    · split at hnext
      · split at hnext
        · obtain rfl := Option.some.inj hnext
          exact sound_behind_settle (Nat.le_of_succ_le hle)
        · cases hnext
      · cases hnext

/-! ### Ways to the end -/

/-- What is open behind an operand can be closed: by one parenthesis for each pair. -/
theorem exists_closing (bound : Nat) (around : List Enclosure) :
    ∃ more, Expr.course.walk? bound (behind (settle around)) more = some (behind []) := by
  induction hlength : around.length using Nat.strongRecOn generalizing around with
  | ind n ih =>
    rcases settle_cases around with hnil | ⟨outer, hcons⟩
    · exact ⟨[], by rw [hnil]; rfl⟩
    · have hle := settle_length_le around
      rw [hcons, List.length_cons] at hle
      -- one parenthesis ends the innermost pair, and the signs in front of it with it
      obtain ⟨more, hmore⟩ := ih outer.length (by omega) outer rfl
      refine ⟨⟨.symbol .rightParen, ")", 1⟩ :: more, ?_⟩
      rw [hcons]
      exact Course.walk?_cons_of_step? (step?_rightParen rfl) hmore

/-- From every place that may be left there is a way to the end of the expression: an operand that
has to begin may be a literal. -/
theorem exists_completion {standing : Standing} (hsound : standing.Sound bound)
    (hwithin : standing.isWithin bound = true) :
    ∃ more, Expr.course.walk? bound standing more = some (behind []) := by
  cases standing with
  | before around =>
    obtain ⟨more, hmore⟩ := exists_closing bound around
    have hnil : Expr.course.step? bound (before around) ⟨.keyword .nil_, "nil", 1⟩ =
        some (behind (settle around)) :=
      step?_literal (of_decide_eq_true hwithin) (by decide) (by decide) rfl
    exact ⟨_, Course.walk?_cons_of_step? hnil hmore⟩
  | behind around =>
    obtain ⟨more, hmore⟩ := exists_closing bound around
    rw [hsound.settled around rfl] at hmore
    exact ⟨more, hmore⟩

end Standing

/-! ## The course of programs -/

/-- A place in a program: in front of a statement, or in the expression of one that prints or does
not. -/
inductive Spot
  | front
  | inside (prints : Bool) (standing : Standing)
  deriving DecidableEq, Repr

namespace Spot

/-- The place in an expression. In front of a statement an operand has to begin, unless the
keyword of a statement comes first. -/
def standing : Spot → Standing
  | front => .before []
  | inside _ standing => standing

/-- The fault of a statement that does not end where its expression does. -/
def missingBehind (prints : Bool) : SyntaxFault :=
  if prints then .expectedSemicolonAfterValue else .expectedSemicolonAfterExpression

/-- What is missing where the expression is complete. -/
def missing : Spot → SyntaxFault
  | front => missingBehind false
  | inside prints _ => missingBehind prints

/-- The place behind a token that may stand here. -/
def next? (spot : Spot) (t : Token) : Option Spot :=
  match spot with
  | front =>
    if t.kind = .keyword .print_ then some (inside true (.before []))
    else ((Standing.before []).next? t).map (inside false)
  | inside prints standing =>
    if standing = .behind [] ∧ t.kind = .symbol .semicolon then some front
    else (standing.next? t).map (inside prints)

end Spot

/-- Programs begin and end in front of a statement. -/
def Program.course : Course Spot where
  start := .front
  next? := Spot.next?
  standing := Spot.standing
  Complete spot := spot = .front
  missing := Spot.missing

namespace Spot

variable {bound : Nat} {prints : Bool} {standing standing' : Standing} {t : Token}

theorem course_next? (spot : Spot) (t : Token) :
    Program.course.next? spot t = spot.next? t := rfl

theorem step?_of_next? {spot spot' : Spot} (hwithin : spot.standing.isWithin bound = true)
    (h : spot.next? t = some spot') : Program.course.step? bound spot t = some spot' :=
  Course.step?_of_next? hwithin h

theorem next?_of_step? {spot spot' : Spot}
    (h : Program.course.step? bound spot t = some spot') :
    spot.standing.isWithin bound = true ∧ spot.next? t = some spot' :=
  Course.next?_of_step? h

/-- A step in the expression of a statement is the same step in the statement. -/
theorem step?_inside (h : Expr.course.step? bound standing t = some standing') :
    Program.course.step? bound (inside prints standing) t = some (inside prints standing') := by
  obtain ⟨hwithin, hnext⟩ := Standing.next?_of_step? h
  refine step?_of_next? hwithin ?_
  have hopen : ¬ (standing = .behind [] ∧ t.kind = .symbol .semicolon) := by
    rintro ⟨rfl, hkind⟩
    rw [Standing.next?_semicolon _ hkind] at hnext
    cases hnext
  rw [next?, if_neg hopen, hnext]
  rfl

/-- Where the expression cannot go on, neither can the statement, unless it ends. -/
theorem step?_inside_eq_none (h : Expr.course.step? bound standing t = none)
    (hopen : ¬ (standing = .behind [] ∧ t.kind = .symbol .semicolon)) :
    Program.course.step? bound (inside prints standing) t = none := by
  cases hstep : Program.course.step? bound (inside prints standing) t with
  | none => rfl
  | some spot =>
    obtain ⟨hwithin, hnext⟩ := next?_of_step? hstep
    have hwithin' : standing.isWithin bound = true := hwithin
    rw [next?, if_neg hopen] at hnext
    obtain ⟨standing', hstanding, -⟩ := Option.map_eq_some_iff.1 hnext
    rw [Standing.step?_of_next? hwithin' hstanding] at h
    cases h

theorem step?_semicolon (hkind : t.kind = .symbol .semicolon) :
    Program.course.step? bound (inside prints (.behind [])) t = some front := by
  refine step?_of_next? rfl ?_
  rw [next?, if_pos ⟨rfl, hkind⟩]

theorem step?_print (hbound : 0 < bound) (hkind : t.kind = .keyword .print_) :
    Program.course.step? bound front t =
      some (inside true (.before [])) := by
  refine step?_of_next? (decide_eq_true hbound) ?_
  rw [next?, if_pos hkind]

/-- Without the keyword a statement begins as its expression does. -/
theorem step?_front (hkind : ¬ t.kind = .keyword .print_) :
    Program.course.step? bound front t =
      Program.course.step? bound (inside false (.before [])) t := by
  have hopen : ¬ (Standing.before [] = .behind [] ∧ t.kind = .symbol .semicolon) := by
    rintro ⟨⟨⟩, -⟩
  have hnext : Program.course.next? front t =
      Program.course.next? (inside false (.before [])) t := by
    rw [course_next?, course_next?, next?, next?, if_neg hkind, if_neg hopen]
  rw [Course.step?, Course.step?, hnext]
  rfl

theorem walk?_front (hkind : ¬ t.kind = .keyword .print_) (more : List Token) :
    Program.course.walk? bound front (t :: more) =
      Program.course.walk? bound (inside false (.before [])) (t :: more) := by
  rw [Course.walk?_cons, step?_front hkind, ← Course.walk?_cons]

theorem walk?_inside {tokens : List Token}
    (h : Expr.course.walk? bound standing tokens = some standing') :
    Program.course.walk? bound (inside prints standing) tokens =
      some (inside prints standing') := by
  induction tokens generalizing standing with
  | nil => rw [← Option.some.inj h]; rfl
  | cons t tokens ih =>
    rw [Course.walk?_cons, Option.bind_eq_some_iff] at h
    obtain ⟨middle, hmiddle, hwalk⟩ := h
    exact Course.walk?_cons_of_step? (step?_inside hmiddle) (ih hwalk)

/-- What a walk keeps in an expression, it keeps in a program. -/
theorem sound_step {spot spot' : Spot} (hsound : spot.standing.Sound bound)
    (hstep : Program.course.step? bound spot t = some spot') : spot'.standing.Sound bound := by
  obtain ⟨hwithin, hnext⟩ := next?_of_step? hstep
  cases spot with
  | front =>
    rw [next?] at hnext
    split at hnext
    · obtain rfl := Option.some.inj hnext
      exact Standing.sound_start bound
    · obtain ⟨standing, hstanding, rfl⟩ := Option.map_eq_some_iff.1 hnext
      exact hsound.step (Standing.step?_of_next? hwithin hstanding)
  | inside prints standing =>
    rw [next?] at hnext
    split at hnext
    · obtain rfl := Option.some.inj hnext
      exact Standing.sound_start bound
    · obtain ⟨standing', hstanding, rfl⟩ := Option.map_eq_some_iff.1 hnext
      exact hsound.step (Standing.step?_of_next? hwithin hstanding)

/-- From every place that may be left there is a way to the end of the statement. -/
theorem exists_completion {spot : Spot} (hsound : spot.standing.Sound bound)
    (hwithin : spot.standing.isWithin bound = true) :
    ∃ more, Program.course.walk? bound spot more = some front := by
  cases spot with
  | front => exact ⟨[], rfl⟩
  | inside prints standing =>
    obtain ⟨more, hmore⟩ := Standing.exists_completion hsound hwithin
    refine ⟨more ++ [⟨.symbol .semicolon, ";", 1⟩], ?_⟩
    exact Course.walk?_trans (walk?_inside hmore)
      (Course.walk?_cons_of_step? (step?_semicolon rfl) rfl)

end Spot

end Lox
