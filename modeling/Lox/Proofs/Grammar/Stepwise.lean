/-
The reading of a token list, step by step.

The readers of the grammar are handed the tokens in front of the end marker and hand on what they
leave. Here the same reading goes over the whole list, with everything that stands behind the first
end marker in it. A token is got at by an index, `current`, and there may be none at it. What is
being read and what waits for it is written down too, so a state is all there is between one look
at a token and the next one.

One step looks at the token at `current`, at most at one in front of it as well, and moves at most
one token on, which `advance` refuses to do at an end marker. So `current` never passes the first
one, every look finds a token, and a step is the same on every list that agrees up to that marker.

That the machine reads what the readers read is shown in `Lox.Proofs.Grammar.Unread`.
-/
import Mathlib.Logic.Function.Iterate
import Lox.Proofs.Grammar.Programs

set_option autoImplicit false

namespace Lox

/-- The level whose expressions are the operands of this one, none if these are the operands of all
levels. -/
def Level.operands? : Level → Option Level
  | equality => some .comparison
  | comparison => some .term
  | term => some .factor
  | factor => none

namespace Parser

/-! ## States -/

/-- What waits for the expression that is being read. -/
inductive Frame
  /-- A chain of the level, to begin with it. -/
  | first (level : Level)
  /-- A chain of the level, to join it to what is on the left. -/
  | right (level : Level) (left : Expr) (operator : Token)
  /-- The count of open nestings. -/
  | nesting
  /-- A unary operator. -/
  | sign (operator : Token)
  /-- A pair of parentheses, the first one read. -/
  | group
  /-- A statement, and what is wrong if its semicolon is missing. -/
  | statement (make : Expr → Stmt) (missing : SyntaxFault)
  /-- The end of all tokens. -/
  | whole

/-- What a parser comes to. -/
inductive Outcome
  | expression (found : Except Diagnostic Expr)
  | program (found : Except (List Diagnostic) Program)

/-- What is to be done next. -/
inductive Task
  /-- To read a chain of the level, or an operand of all levels. -/
  | enter (level? : Option Level)
  /-- To read an operand that was counted as a nesting. -/
  | operand
  /-- To join operands of the level to the left one, as long as there are operators. -/
  | join (level : Level) (left : Expr)
  /-- To hand an expression, or the fault in it, to what waits for it. -/
  | give (found : Except Diagnostic Expr)
  /-- To read statements, as long as there are tokens. -/
  | program
  /-- To read a statement. -/
  | statement
  /-- To skip the token at which a statement has its fault. -/
  | recover
  /-- To skip tokens until a statement is likely to begin. -/
  | resume
  /-- Nothing: the reading is over. -/
  | finished (outcome : Outcome)
  /-- Nothing: a token was looked for where there is none. -/
  | outside

/-- A parser between two steps: the index of the next token, the count of open nestings, what is to
be done, what waits for it with the innermost first, and what was found of a program so far. -/
structure State where
  current : Nat
  depth : Nat
  task : Task
  frames : List Frame
  program : Program
  faults : List Diagnostic

/-- The parser of an expression that all tokens make up. -/
def State.expression : State := ⟨0, 0, .enter (some .equality), [.whole], [], []⟩

/-- The parser of a program. -/
def State.ofProgram : State := ⟨0, 0, .program, [], [], []⟩

namespace State

/-- Goes on past the token that is next, unless it is an end marker. -/
def advance (s : State) (t : Token) : State :=
  if t.isEnding then s else { s with current := s.current + 1 }

/-- Gives up an expression. -/
def fail (s : State) (cause : SyntaxFault) (t : Token) : State :=
  { s with task := .give (.error (cause.about t)) }

/-- Begins an operand with the token that is next. -/
def begin (s : State) (t : Token) : State :=
  if t.isUnary then
    { s.advance t with task := .enter none, frames := .sign t :: s.frames }
  else if t.kind = .symbol .leftParen then
    { s.advance t with task := .enter (some .equality), frames := .group :: s.frames }
  else
    match t.literal? with
    | some value => { s.advance t with task := .give (.ok (.literal value)) }
    | none => s.fail .expectedExpression t

/-- What the statements and faults that were found make of a program. -/
def outcome (s : State) : Outcome :=
  .program (if s.faults = [] then .ok s.program else .error s.faults)

end State

/-! ## Steps -/

section Step

variable (tokens : List Token)

namespace State

/-- Does something with the token that is next. -/
def look (s : State) (use : Token → State) : State :=
  match tokens[s.current]? with
  | some t => use t
  | none => { s with task := .outside }

/-- Does something with the token in front of that one, or with the first token if it is next. -/
def lookBack (s : State) (use : Token → State) : State :=
  match tokens[s.current - 1]? with
  | some t => use t
  | none => { s with task := .outside }

/-- Uses up a token of the given kind and goes on, or finds it missing. -/
def close (s : State) (kind : Kind) (missing : SyntaxFault) (next : State → State) : State :=
  s.look tokens fun t => if t.kind = kind then next (s.advance t) else s.fail missing t

/-- Hands an expression to what waits for it. Where a closing token is missing, the fault is handed
to the same frame. -/
def receive (s : State) (e : Expr) : State :=
  match s.frames with
  | [] => s
  | .first level :: frames => { s with task := .join level e, frames := frames }
  | .right level left operator :: frames =>
    { s with task := .join level (.binary left operator e), frames := frames }
  | .nesting :: frames => { s with depth := s.depth - 1, frames := frames }
  | .sign operator :: frames =>
    { s with task := .give (.ok (.unary operator e)), frames := frames }
  | .group :: frames =>
    s.close tokens (.symbol .rightParen) .missingRightParen fun s =>
      { s with task := .give (.ok (.group e)), frames := frames }
  | .statement make missing :: frames =>
    s.close tokens (.symbol .semicolon) missing fun s =>
      { s with task := .program, frames := frames, program := s.program ++ [make e] }
  | .whole :: frames =>
    s.close tokens .ending .expectedEndOfExpression fun s =>
      { s with task := .finished (.expression (.ok e)), frames := frames }

/-- Hands a fault to what waits for an expression. -/
def unwind (s : State) (d : Diagnostic) : State :=
  match s.frames with
  | [] => s
  | .nesting :: frames => { s with depth := s.depth - 1, frames := frames }
  | .statement _ _ :: frames =>
    { s with task := .recover, frames := frames, faults := s.faults ++ [d] }
  | .whole :: frames => { s with task := .finished (.expression (.error d)), frames := frames }
  | _ :: frames => { s with frames := frames }

end State

/-- One step of a parser over the tokens. -/
def step (s : State) : State :=
  match s.task with
  | .enter (some level) =>
    { s with task := .enter level.operands?, frames := .first level :: s.frames }
  | .enter none =>
    if s.depth = maxNesting then s.look tokens fun t => s.fail .tooDeeplyNested t
    else { s with task := .operand, depth := s.depth + 1, frames := .nesting :: s.frames }
  | .operand => s.look tokens fun t => s.begin t
  | .join level left =>
    s.look tokens fun t =>
      if t.level? = some level then
        { s.advance t with
          task := .enter level.operands?, frames := .right level left t :: s.frames }
      else { s with task := .give (.ok left) }
  | .give (.ok e) => s.receive tokens e
  | .give (.error d) => s.unwind d
  | .program =>
    s.look tokens fun t =>
      { s with task := if t.isEnding then .finished s.outcome else .statement }
  | .statement =>
    s.look tokens fun t =>
      if t.kind = .keyword .print_ then
        { s.advance t with
          task := .enter (some .equality)
          frames := .statement .print .expectedSemicolonAfterValue :: s.frames }
      else
        { s with
          task := .enter (some .equality)
          frames := .statement .expression .expectedSemicolonAfterExpression :: s.frames }
  | .recover => s.look tokens fun t => { s.advance t with task := .resume }
  | .resume =>
    s.look tokens fun t =>
      if t.isEnding then { s with task := .program }
      else
        s.lookBack tokens fun last =>
          if last.kind = .symbol .semicolon || t.beginsStatement then { s with task := .program }
          else s.advance t
  | .finished _ => s
  | .outside => s

/-- The state after some steps. -/
def stateAfter (n : Nat) (s : State) : State := (step tokens)^[n] s

end Step

/-! ## Looks -/

section Looks

variable {tokens others : List Token} {s : State} {use : Token → State}

theorem State.look_of_getElem? {t : Token} (h : tokens[s.current]? = some t) :
    s.look tokens use = use t := by
  rw [look, h]

theorem State.lookBack_of_getElem? {t : Token} (h : tokens[s.current - 1]? = some t) :
    s.lookBack tokens use = use t := by
  rw [lookBack, h]

theorem State.advance_task (t : Token) : (s.advance t).task = s.task := by
  rw [advance]
  split <;> rfl

/-! ### Up to the first end marker -/

/-- The parser has not passed the first end marker, and it found a token wherever it looked. -/
structure State.Inside (tokens : List Token) (s : State) : Prop where
  current_le : s.current ≤ tokens.findIdx Token.isEnding
  task_ne : s.task ≠ .outside

variable (hended : tokens.findIdx Token.isEnding < tokens.length)
include hended

/-- There is a token at every index up to the first end marker. -/
theorem exists_getElem? {i : Nat} (hi : i ≤ tokens.findIdx Token.isEnding) :
    ∃ t, tokens[i]? = some t :=
  ⟨tokens[i], List.getElem?_eq_getElem (Nat.lt_of_le_of_lt hi hended)⟩

/-- At the first end marker the parser does not move, and in front of it there is room to. -/
theorem State.advance_le {t : Token} (ht : tokens[s.current]? = some t)
    (hs : s.current ≤ tokens.findIdx Token.isEnding) :
    (s.advance t).current ≤ tokens.findIdx Token.isEnding := by
  rw [advance]
  by_cases hending : t.isEnding = true
  · rw [if_pos hending]
    exact hs
  · rw [if_neg hending]
    refine Nat.lt_of_le_of_ne hs fun heq => hending ?_
    -- what stands at the index of the first end marker is one
    rw [heq, List.getElem?_eq_getElem hended] at ht
    rw [← Option.some.inj ht]
    exact List.findIdx_getElem

theorem State.Inside.look (hs : s.current ≤ tokens.findIdx Token.isEnding)
    (huse : ∀ t, tokens[s.current]? = some t → (use t).Inside tokens) :
    (s.look tokens use).Inside tokens := by
  obtain ⟨t, ht⟩ := exists_getElem? hended hs
  rw [look_of_getElem? ht]
  exact huse t ht

theorem State.Inside.lookBack (hs : s.current ≤ tokens.findIdx Token.isEnding)
    (huse : ∀ t, (use t).Inside tokens) : (s.lookBack tokens use).Inside tokens := by
  obtain ⟨t, ht⟩ := exists_getElem? hended (Nat.le_trans (Nat.sub_le _ 1) hs)
  rw [lookBack_of_getElem? ht]
  exact huse t

theorem State.Inside.close {kind : Kind} {missing : SyntaxFault} {next : State → State}
    (hs : s.current ≤ tokens.findIdx Token.isEnding)
    (hnext : ∀ s' : State, s'.current ≤ tokens.findIdx Token.isEnding → (next s').Inside tokens) :
    (s.close tokens kind missing next).Inside tokens := by
  refine Inside.look hended hs fun t ht => ?_
  by_cases hkind : t.kind = kind
  · rw [if_pos hkind]
    exact hnext _ (advance_le hended ht hs)
  · rw [if_neg hkind]
    exact ⟨hs, nofun⟩

theorem State.Inside.begin {t : Token} (ht : tokens[s.current]? = some t)
    (hs : s.current ≤ tokens.findIdx Token.isEnding) : (s.begin t).Inside tokens := by
  have hadvance := advance_le hended ht hs
  rw [State.begin]
  by_cases hunary : t.isUnary = true
  · rw [if_pos hunary]
    exact ⟨hadvance, nofun⟩
  rw [if_neg hunary]
  by_cases hparen : t.kind = .symbol .leftParen
  · rw [if_pos hparen]
    exact ⟨hadvance, nofun⟩
  rw [if_neg hparen]
  cases t.literal? with
  | some value => exact ⟨hadvance, nofun⟩
  | none => exact ⟨hs, nofun⟩

/-- An expression is handed on without a move, but for the closing token that is used up. -/
theorem State.Inside.receive (hs : s.Inside tokens) (e : Expr) :
    (s.receive tokens e).Inside tokens := by
  obtain ⟨hcurrent, htask⟩ := hs
  rw [State.receive]
  cases s.frames with
  | nil => exact ⟨hcurrent, htask⟩
  | cons frame frames =>
    cases frame with
    | first level => exact ⟨hcurrent, nofun⟩
    | right level left operator => exact ⟨hcurrent, nofun⟩
    | nesting => exact ⟨hcurrent, htask⟩
    | sign operator => exact ⟨hcurrent, nofun⟩
    | group => exact Inside.close hended hcurrent fun s' hs' => ⟨hs', nofun⟩
    | statement make missing => exact Inside.close hended hcurrent fun s' hs' => ⟨hs', nofun⟩
    | whole => exact Inside.close hended hcurrent fun s' hs' => ⟨hs', nofun⟩

omit hended in
/-- A fault is handed on without a move. -/
theorem State.Inside.unwind (hs : s.Inside tokens) (d : Diagnostic) :
    (s.unwind d).Inside tokens := by
  obtain ⟨hcurrent, htask⟩ := hs
  rw [State.unwind]
  cases s.frames with
  | nil => exact ⟨hcurrent, htask⟩
  | cons frame frames =>
    cases frame with
    | statement make missing => exact ⟨hcurrent, nofun⟩
    | whole => exact ⟨hcurrent, nofun⟩
    | _ => exact ⟨hcurrent, htask⟩

/-- **No step passes the first end marker**, and every look of a step finds a token. -/
theorem State.Inside.step (hs : s.Inside tokens) : (step tokens s).Inside tokens := by
  have hcurrent := hs.current_le
  rw [Parser.step]
  cases htask : s.task with
  | enter level? =>
    cases level? with
    | some level => exact ⟨hcurrent, nofun⟩
    | none =>
      by_cases hdepth : s.depth = maxNesting
      · simp only [if_pos hdepth]
        exact Inside.look hended hcurrent fun t _ => ⟨hcurrent, nofun⟩
      · simp only [if_neg hdepth]
        exact ⟨hcurrent, nofun⟩
  | operand => exact Inside.look hended hcurrent fun t ht => Inside.begin hended ht hcurrent
  | join level left =>
    refine Inside.look hended hcurrent fun t ht => ?_
    by_cases hlevel : t.level? = some level
    · rw [if_pos hlevel]
      exact ⟨advance_le hended ht hcurrent, nofun⟩
    · rw [if_neg hlevel]
      exact ⟨hcurrent, nofun⟩
  | give found =>
    cases found with
    | ok e => exact Inside.receive hended hs e
    | error d => exact Inside.unwind hs d
  | program =>
    refine Inside.look hended hcurrent fun t _ => ⟨hcurrent, ?_⟩
    by_cases hending : t.isEnding = true
    · simp [hending]
    · simp [hending]
  | statement =>
    refine Inside.look hended hcurrent fun t ht => ?_
    by_cases hprint : t.kind = .keyword .print_
    · rw [if_pos hprint]
      exact ⟨advance_le hended ht hcurrent, nofun⟩
    · rw [if_neg hprint]
      exact ⟨hcurrent, nofun⟩
  | recover =>
    exact Inside.look hended hcurrent fun t ht => ⟨advance_le hended ht hcurrent, nofun⟩
  | resume =>
    refine Inside.look hended hcurrent fun t ht => ?_
    by_cases hending : t.isEnding = true
    · rw [if_pos hending]
      exact ⟨hcurrent, nofun⟩
    rw [if_neg hending]
    refine Inside.lookBack hended hcurrent fun last => ?_
    by_cases hstop : (decide (last.kind = .symbol .semicolon) || t.beginsStatement) = true
    · rw [if_pos hstop]
      exact ⟨hcurrent, nofun⟩
    · rw [if_neg hstop]
      have htask' : (s.advance t).task ≠ .outside := by
        rw [advance_task, htask]
        nofun
      exact ⟨advance_le hended ht hcurrent, htask'⟩
  | finished outcome => exact hs
  | outside => exact absurd htask hs.task_ne

/-- A run is steps, so it does not pass the first end marker either. -/
theorem State.Inside.stateAfter (hs : s.Inside tokens) (n : Nat) :
    (stateAfter tokens n s).Inside tokens := by
  induction n generalizing s with
  | zero => exact hs
  | succ n ih => exact ih (hs.step hended)

end Looks

/-! ## Lists that agree up to the first end marker -/

section Agreement

variable {tokens others : List Token} {s : State}

/-- A step depends on nothing but the two tokens it may look at. -/
theorem step_congr (hnext : tokens[s.current]? = others[s.current]?)
    (hlast : tokens[s.current - 1]? = others[s.current - 1]?) :
    step tokens s = step others s := by
  have hlook (use : Token → State) : s.look tokens use = s.look others use := by
    rw [State.look, State.look, hnext]
  have hlookBack (use : Token → State) : s.lookBack tokens use = s.lookBack others use := by
    rw [State.lookBack, State.lookBack, hlast]
  have hreceive (e : Expr) : s.receive tokens e = s.receive others e := by
    simp only [State.receive, State.close, hlook]
  simp only [step, hlook, hlookBack, hreceive]

/-- As long as the lists agree, a run over the one is a run over the other. -/
theorem stateAfter_congr (hended : tokens.findIdx Token.isEnding < tokens.length)
    (hagree : ∀ i ≤ tokens.findIdx Token.isEnding, tokens[i]? = others[i]?)
    (hs : s.Inside tokens) (n : Nat) : stateAfter tokens n s = stateAfter others n s := by
  induction n generalizing s with
  | zero => rfl
  | succ n ih =>
    have hcurrent := hs.current_le
    -- the token in front is not behind the marker either, also where there is none in front
    have hstep : step tokens s = step others s :=
      step_congr (hagree _ hcurrent) (hagree _ (Nat.le_trans (Nat.sub_le _ 1) hcurrent))
    change stateAfter tokens n (step tokens s) = stateAfter others n (step others s)
    rw [← hstep]
    exact ih (hs.step hended)

end Agreement

end Parser

end Lox
