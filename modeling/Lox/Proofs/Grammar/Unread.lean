/-
Tokens behind the first end marker are never read.

The stepwise parser works on the whole list, and the readers of the grammar work on the tokens in
front of its first end marker only. Here the one is shown to do what the other do. At an index from
which on some tokens are left in front of the marker (`Left`), a parser that is to read an
expression hands on, after some steps, what the reader makes of these tokens, at the index of what
the reader leaves, and with all that was waiting still waiting (`Hands`). The proofs follow the way
the readers are made: an operand is read by recursion on the depth that is left, a chain by
induction on the number of tokens, a program pass by pass.

So the parser ends, and what it comes to is what the list is read as. Since it never passes the
first end marker, it comes to the same through the same states on the list cut behind it.
-/
import Lox.Proofs.Grammar.Lockstep
import Lox.Proofs.Grammar.Stepwise

set_option autoImplicit false

namespace Lox

theorem Token.meaning_of_isEnding {t : Token} (ht : t.isEnding = true) : t.meaning = .ending := by
  have hkind : t.kind = .ending := of_decide_eq_true ht
  cases hm : t.meaning <;> simp [kind, hm, Meaning.kind] at hkind ⊢

namespace Parser

/-! ## What is left -/

/-- From this index on there are these tokens, none of them an end marker, and then the marker. -/
structure Left (tokens : List Token) (marker : Token) (i : Nat) (rest : List Token) : Prop where
  drop_eq : ∃ tail, tokens.drop i = rest ++ marker :: tail
  isOpen : ∀ t ∈ rest, t.isEnding = false
  marker_ends : marker.isEnding = true

namespace Left

variable {tokens rest : List Token} {marker t : Token} {i : Nat}

theorem getElem?_nil (h : Left tokens marker i []) : tokens[i]? = some marker := by
  obtain ⟨tail, hdrop⟩ := h.drop_eq
  rw [← List.head?_drop, hdrop]
  rfl

theorem getElem?_cons (h : Left tokens marker i (t :: rest)) : tokens[i]? = some t := by
  obtain ⟨tail, hdrop⟩ := h.drop_eq
  rw [← List.head?_drop, hdrop]
  rfl

theorem isEnding_eq_false (h : Left tokens marker i (t :: rest)) : t.isEnding = false :=
  h.isOpen t (List.mem_cons_self ..)

/-- One token less is left at the next index. -/
theorem next (h : Left tokens marker i (t :: rest)) : Left tokens marker (i + 1) rest := by
  obtain ⟨tail, hdrop⟩ := h.drop_eq
  refine ⟨⟨tail, ?_⟩, fun u hu => h.isOpen u (List.mem_cons_of_mem _ hu), h.marker_ends⟩
  rw [← List.drop_drop, hdrop]
  rfl

theorem exists_getElem? (h : Left tokens marker i rest) : ∃ t, tokens[i]? = some t := by
  cases rest with
  | nil => exact ⟨marker, h.getElem?_nil⟩
  | cons t rest => exact ⟨t, h.getElem?_cons⟩

/-- A fault here is about the token that is next, which is the marker where nothing is left. -/
theorem diagnostic_eq (h : Left tokens marker i rest) (ht : tokens[i]? = some t)
    (cause : SyntaxFault) : Misfit.diagnostic marker ⟨cause, rest⟩ = cause.about t := by
  obtain ⟨tail, hdrop⟩ := h.drop_eq
  rw [← List.head?_drop, hdrop, List.head?_eq_some_iff] at ht
  obtain ⟨more, hplace⟩ := ht
  exact Misfit.diagnostic_eq_about h.isOpen h.marker_ends hplace

end Left

/-! ## Runs -/

section Runs

variable {tokens : List Token} {s s' s'' : State}

variable (tokens) in
/-- The parser comes from one state to another. -/
def Comes (s s' : State) : Prop :=
  ∃ n, stateAfter tokens n s = s'

theorem Comes.refl (s : State) : Comes tokens s s :=
  ⟨0, rfl⟩

theorem Comes.step (h : Comes tokens (Parser.step tokens s) s') : Comes tokens s s' := by
  obtain ⟨n, hn⟩ := h
  exact ⟨n + 1, hn⟩

variable (tokens s) in
theorem Comes.one : Comes tokens s (Parser.step tokens s) :=
  ⟨1, rfl⟩

theorem Comes.trans (h : Comes tokens s s') (h' : Comes tokens s' s'') : Comes tokens s s'' := by
  obtain ⟨n, rfl⟩ := h
  obtain ⟨m, rfl⟩ := h'
  exact ⟨m + n, Function.iterate_add_apply ..⟩

/-- A step that looks at the token that is next finds it. -/
theorem Comes.look {use : Token → State} {t : Token}
    (hlook : Parser.step tokens s = s.look tokens use) (ht : tokens[s.current]? = some t) :
    Comes tokens s (use t) := by
  have hone := Comes.one tokens s
  rw [hlook, State.look_of_getElem? ht] at hone
  exact hone

end Runs

/-! ## Handing on what a reader reads -/

/-- What a reading leaves: the tokens behind what was read, or from the offending one on. -/
def leftOver {α : Type} : Except Misfit (α × List Token) → List Token
  | .ok (_, rest) => rest
  | .error m => m.rest

/-- What a reading hands on. -/
def given {α : Type} (marker : Token) (found : Except Misfit (α × List Token)) :
    Except Diagnostic α :=
  (found.map Prod.fst).mapError (·.diagnostic marker)

section Hands

variable (tokens : List Token) (marker : Token)

/-- From the one state the parser comes to handing on what was read, at what the reading leaves,
and otherwise in the other state. -/
def Hands (s r : State) (found : Except Misfit (Expr × List Token)) : Prop :=
  ∃ i, Left tokens marker i (leftOver found) ∧
    Comes tokens s { r with current := i, task := .give (given marker found) }

/-- A parser that is to read this way, with so many nestings open, does what the reader does. -/
def Follows (reader : Reader) (depth : Nat) (level? : Option Level) : Prop :=
  ∀ (s : State) (rest : List Token), s.task = .enter level? → s.depth = depth →
    Left tokens marker s.current rest → Hands tokens marker s s (reader.read rest)

variable {tokens marker} {s r : State}

theorem Hands.step {found : Except Misfit (Expr × List Token)}
    (h : Hands tokens marker (Parser.step tokens s) r found) : Hands tokens marker s r found := by
  obtain ⟨i, hleft, hcomes⟩ := h
  exact ⟨i, hleft, hcomes.step⟩

theorem Hands.look {use : Token → State} {t : Token} {found : Except Misfit (Expr × List Token)}
    (hlook : Parser.step tokens s = s.look tokens use) (ht : tokens[s.current]? = some t)
    (h : Hands tokens marker (use t) r found) : Hands tokens marker s r found := by
  obtain ⟨i, hleft, hcomes⟩ := h
  exact ⟨i, hleft, (Comes.look hlook ht).trans hcomes⟩

/-- What was read is handed to the frame on top. A fault is handed on by that frame, and with an
expression the parser goes on as the reading does. -/
theorem Hands.bind {found : Except Misfit (Expr × List Token)}
    {next : Expr × List Token → Except Misfit (Expr × List Token)}
    (h : Hands tokens marker s s found)
    (herror : ∀ i d, Parser.step tokens { s with current := i, task := .give (.error d) } =
      { r with current := i, task := .give (.error d) })
    (hok : ∀ i e rest, found = .ok (e, rest) → Left tokens marker i rest →
      Hands tokens marker (Parser.step tokens { s with current := i, task := .give (.ok e) }) r
        (next (e, rest))) :
    Hands tokens marker s r (found >>= next) := by
  obtain ⟨i, hleft, hcomes⟩ := h
  cases found with
  | error m =>
    refine ⟨i, hleft, hcomes.trans (Comes.step ?_)⟩
    change Comes tokens
      (Parser.step tokens { s with current := i, task := .give (.error (m.diagnostic marker)) }) _
    rw [herror]
    exact Comes.refl _
  | ok found =>
    obtain ⟨e, rest⟩ := found
    obtain ⟨j, hleft', hcomes'⟩ := hok i e rest rfl hleft
    exact ⟨j, hleft', hcomes.trans (Comes.step hcomes')⟩

/-! ### Looking and closing -/

theorem State.advance_eq {t : Token} (ht : t.isEnding = false) :
    s.advance t = { s with current := s.current + 1 } := by
  rw [advance, if_neg (by rw [ht]; exact Bool.false_ne_true)]

/-- A closing token is used up as the readers use it up. -/
theorem State.close_of_expect_ok {kind : Kind} {missing : SyntaxFault} {next : State → State}
    {rest more : List Token} (h : Left tokens marker s.current rest)
    (hexpect : expect kind missing rest = .ok more) :
    s.close tokens kind missing next = next { s with current := s.current + 1 } ∧
      Left tokens marker (s.current + 1) more := by
  obtain ⟨t, hkind, rfl⟩ := expect_ok hexpect
  refine ⟨?_, h.next⟩
  rw [close, look_of_getElem? h.getElem?_cons, if_pos hkind, advance_eq h.isEnding_eq_false]

theorem State.close_of_expect_error {kind : Kind} {missing : SyntaxFault} {next : State → State}
    {rest : List Token} {m : Misfit} (h : Left tokens marker s.current rest)
    (hkind : kind ≠ .ending) (hexpect : expect kind missing rest = .error m) :
    s.close tokens kind missing next =
      { s with task := .give (.error (m.diagnostic marker)) } := by
  rw [expect_error hexpect]
  obtain ⟨t, ht⟩ := h.exists_getElem?
  rw [h.diagnostic_eq ht, close, look_of_getElem? ht, if_neg, fail]
  rintro rfl
  cases rest with
  | nil =>
    -- the marker is no closing token
    rw [h.getElem?_nil] at ht
    obtain rfl : marker = t := Option.some.inj ht
    exact hkind (by simpa [Token.isEnding] using h.marker_ends)
  | cons u more =>
    rw [h.getElem?_cons] at ht
    obtain rfl : u = t := Option.some.inj ht
    simp [expect] at hexpect

/-! ### Operands -/

variable {depth : Nat} {rest : List Token} {t : Token}

/-- Giving up is handing on the fault. -/
theorem Hands.fail (hleft : Left tokens marker s.current rest) (ht : tokens[s.current]? = some t)
    (cause : SyntaxFault) : Hands tokens marker (s.fail cause t) s (.error ⟨cause, rest⟩) := by
  rw [State.fail, ← hleft.diagnostic_eq ht]
  exact ⟨s.current, hleft, Comes.refl _⟩

/-- No operand begins with an end marker. -/
theorem State.begin_of_isEnding (ht : t.isEnding = true) :
    s.begin t = s.fail .expectedExpression t := by
  have hmeaning := Token.meaning_of_isEnding ht
  simp [begin, Token.isUnary, Token.literal?, Token.kind, Meaning.kind, hmeaning]

/-- At the bound on nestings the token that is next is at fault, and it is not looked at else. -/
theorem follows_exhausted : Follows tokens marker .exhausted maxNesting none := by
  intro s rest htask hdepth hleft
  obtain ⟨t, ht⟩ := hleft.exists_getElem?
  refine Hands.step ?_
  rw [Parser.step, htask]
  simp only [if_pos hdepth]
  rw [State.look_of_getElem? ht]
  exact Hands.fail hleft ht .tooDeeplyNested

theorem hands_group {inner : Reader}
    (hinner : Follows tokens marker inner depth (some .equality)) (hdepth : s.depth = depth)
    (hleft : Left tokens marker s.current rest) :
    Hands tokens marker
      { s with task := .enter (some .equality), frames := .group :: s.frames } s
      (inner.readGroup rest) := by
  rw [Reader.readGroup_eq_bind]
  have hread := hinner
    { s with task := .enter (some .equality), frames := .group :: s.frames } rest rfl hdepth hleft
  refine Hands.bind (r := s) hread (fun _ _ => rfl) fun i e more _ hmore => ?_
  simp only [Parser.step, State.receive]
  cases hexpect : expect (.symbol .rightParen) .missingRightParen more with
  | ok rest' =>
    obtain ⟨hclose, hrest⟩ := State.close_of_expect_ok (s := { s with
      current := i, task := .give (.ok e), frames := .group :: s.frames }) hmore hexpect
    rw [hclose]
    exact ⟨i + 1, hrest, Comes.refl _⟩
  | error m =>
    rw [State.close_of_expect_error (s := { s with
      current := i, task := .give (.ok e), frames := .group :: s.frames }) hmore (by decide) hexpect,
      expect_error hexpect]
    -- the fault goes to the frame of the parentheses first
    exact ⟨i, hmore, Comes.one tokens _⟩

theorem hands_operand {nested : Reader} (hnested : Follows tokens marker nested depth none)
    (hall : Follows tokens marker nested.allLevels depth (some .equality))
    (htask : s.task = .operand) (hdepth : s.depth = depth)
    (hleft : Left tokens marker s.current rest) :
    Hands tokens marker s s (nested.readOperand rest) := by
  cases rest with
  | nil =>
    refine Hands.look (by rw [Parser.step, htask]) hleft.getElem?_nil ?_
    rw [State.begin_of_isEnding hleft.marker_ends]
    exact Hands.fail hleft hleft.getElem?_nil .expectedExpression
  | cons t more =>
    refine Hands.look (by rw [Parser.step, htask]) hleft.getElem?_cons ?_
    rw [State.begin, State.advance_eq hleft.isEnding_eq_false]
    by_cases hunary : t.isUnary = true
    · rw [if_pos hunary, Reader.readOperand_of_isUnary hunary]
      have hread := hnested { s with
        current := s.current + 1, task := .enter none, frames := .sign t :: s.frames } more rfl
        hdepth hleft.next
      refine Hands.bind (r := s) hread (fun _ _ => rfl) fun i e more' _ hmore => ?_
      exact ⟨i, hmore, Comes.refl _⟩
    rw [Reader.readOperand, if_neg hunary, if_neg hunary]
    by_cases hparen : t.kind = .symbol .leftParen
    · rw [if_pos hparen, if_pos hparen]
      exact hands_group (s := { s with current := s.current + 1 }) hall hdepth hleft.next
    rw [if_neg hparen, if_neg hparen]
    cases t.literal? with
    | some value => exact ⟨s.current + 1, hleft.next, Comes.refl _⟩
    | none => exact Hands.fail hleft hleft.getElem?_cons .expectedExpression

/-- An operand is read with one more nesting open. -/
theorem follows_operand {nested : Reader} (hnested : Follows tokens marker nested (depth + 1) none)
    (hall : Follows tokens marker nested.allLevels (depth + 1) (some .equality))
    (hdepth : depth ≠ maxNesting) : Follows tokens marker nested.operand depth none := by
  intro s rest htask hs hleft
  refine Hands.step ?_
  rw [Parser.step, htask]
  simp only [if_neg (hs ▸ hdepth)]
  have hread := hands_operand (s := { s with
    task := .operand, depth := s.depth + 1, frames := .nesting :: s.frames }) hnested hall rfl
    (congrArg (· + 1) hs) hleft
  -- the frame takes the count back whatever was read, and changes nothing else
  rw [← bind_pure (nested.operand.read rest)]
  refine Hands.bind hread (fun _ _ => rfl) fun i e more _ hmore => ?_
  exact ⟨i, hmore, Comes.refl _⟩

/-! ### Chains -/

/-- Operands are joined as long as there are operators. The proof is by induction on how much is left, since
each operand uses up as many tokens as it likes. -/
theorem hands_join {operand : Reader} {level : Level}
    (hoperand : Follows tokens marker operand depth level.operands?) (left : Expr)
    (htask : s.task = .join level left) (hdepth : s.depth = depth)
    (hleft : Left tokens marker s.current rest) :
    Hands tokens marker s s (Reader.join level operand left rest) := by
  induction hlength : rest.length using Nat.strongRecOn generalizing s left rest with
  | ind n ih =>
    cases rest with
    | nil =>
      -- the marker is no operator
      have hlevel : ¬ marker.level? = some level := by
        simp [Token.level?, Token.meaning_of_isEnding hleft.marker_ends]
      refine Hands.look (by rw [Parser.step, htask]) hleft.getElem?_nil ?_
      rw [if_neg hlevel, Reader.join]
      exact ⟨s.current, hleft, Comes.refl _⟩
    | cons t more =>
      refine Hands.look (by rw [Parser.step, htask]) hleft.getElem?_cons ?_
      rw [Reader.join_cons]
      by_cases hlevel : t.level? = some level
      · rw [if_pos hlevel, if_pos hlevel, State.advance_eq hleft.isEnding_eq_false]
        have hread := hoperand { s with
          current := s.current + 1, task := .enter level.operands?
          frames := .right level left t :: s.frames } more rfl hdepth hleft.next
        refine Hands.bind (r := s) hread (fun _ _ => rfl) fun i e more' hfound hmore => ?_
        -- the loop goes on with what was joined on the left, and with less to read
        have hshorter := operand.uses_lt hfound
        rw [List.length_cons] at hlength
        exact ih more'.length (by omega)
          (s := { s with current := i, task := .join level (.binary left t e) }) _ rfl hdepth hmore
          rfl
      · rw [if_neg hlevel, if_neg hlevel]
        exact ⟨s.current, hleft, Comes.refl _⟩

theorem follows_chain {operand : Reader} {level : Level}
    (hoperand : Follows tokens marker operand depth level.operands?) :
    Follows tokens marker (operand.chain level) depth (some level) := by
  intro s rest htask hdepth hleft
  refine Hands.step ?_
  rw [Parser.step, htask, Reader.chain_read]
  have hread := hoperand { s with
    task := .enter level.operands?, frames := .first level :: s.frames } rest rfl hdepth hleft
  refine Hands.bind (r := s) hread (fun _ _ => rfl) fun i e more _ hmore => ?_
  exact hands_join (s := { s with current := i, task := .join level e }) hoperand e rfl hdepth hmore

theorem follows_allLevels {operand : Reader} (hoperand : Follows tokens marker operand depth none) :
    Follows tokens marker operand.allLevels depth (some .equality) := by
  have hfactor : Follows tokens marker _ depth (some .factor) := follows_chain hoperand
  have hterm : Follows tokens marker _ depth (some .term) := follows_chain hfactor
  have hcomparison : Follows tokens marker _ depth (some .comparison) := follows_chain hterm
  exact follows_chain hcomparison

/-- The depth that is left and the nestings that are open make up the bound. -/
theorem follows_operands (room : Nat) (hdepth : depth + room = maxNesting) :
    Follows tokens marker (Reader.operands room) depth none := by
  induction room generalizing depth with
  | zero =>
    obtain rfl : depth = maxNesting := hdepth
    exact follows_exhausted
  | succ room ih =>
    have hnested : Follows tokens marker (Reader.operands room) (depth + 1) none :=
      ih (by omega)
    exact follows_operand hnested (follows_allLevels hnested) (by omega)

theorem follows_reader : Follows tokens marker Expr.reader 0 (some .equality) :=
  follows_allLevels (follows_operands maxNesting (Nat.zero_add _))

end Hands

/-! ## Whole expressions -/

section Whole

variable {tokens body : List Token} {marker : Token}

/-- The parser of an expression comes to what the body is read as. -/
theorem comes_expression (hleft : Left tokens marker 0 body) :
    ∃ s, Comes tokens .expression s ∧
      s.task = .finished (.expression ((Expr.readAll body).mapError (·.diagnostic marker))) := by
  obtain ⟨i, hrest, hcomes⟩ := follows_reader State.expression body rfl rfl hleft
  rw [Expr.readAll]
  cases hread : Expr.reader.read body with
  | error m =>
    -- only the end of all tokens waits for the fault
    rw [hread] at hcomes
    exact ⟨_, hcomes.trans (Comes.one tokens _), rfl⟩
  | ok found =>
    obtain ⟨e, more⟩ := found
    rw [hread] at hrest hcomes
    have hstep := hcomes.trans (Comes.one tokens _)
    simp only [given, Except.map, Except.mapError, State.expression, Parser.step, State.receive,
      State.close] at hstep
    cases more with
    | nil =>
      have hkind : marker.kind = .ending := of_decide_eq_true hrest.marker_ends
      rw [State.look, hrest.getElem?_nil] at hstep
      simp only [if_pos hkind] at hstep
      exact ⟨_, hstep, rfl⟩
    | cons t more =>
      have hkind : ¬ t.kind = .ending := of_decide_eq_false hrest.isEnding_eq_false
      rw [State.look, hrest.getElem?_cons] at hstep
      simp only [if_neg hkind, State.fail, ← hrest.diagnostic_eq hrest.getElem?_cons] at hstep
      exact ⟨_, hstep.trans (Comes.one tokens _), rfl⟩

end Whole

/-! ## Programs -/

/-- The parser behind a pass: behind the statement, or where it has its fault. -/
def State.behind (s : State) (i : Nat) : Except Diagnostic Stmt → State
  | .ok stmt => { s with current := i, task := .program, program := s.program ++ [stmt] }
  | .error d => { s with current := i, task := .recover, faults := s.faults ++ [d] }

/-- Where the pass is made and what is to be done next is not kept. -/
theorem State.behind_with (s : State) (i : Nat) (task : Task) :
    State.behind { s with current := i, task := task } = s.behind := by
  funext j found
  cases found <;> rfl

section Programs

variable {tokens body rest : List Token} {marker : Token} {s : State}

theorem comes_body (make : Expr → Stmt) (missing : SyntaxFault) (hdepth : s.depth = 0)
    (hleft : Left tokens marker s.current rest) :
    ∃ i, Left tokens marker i (leftOver (Stmt.readBody make missing rest)) ∧
      Comes tokens
        { s with
          task := .enter (some .equality), frames := .statement make missing :: s.frames }
        (s.behind i (given marker (Stmt.readBody make missing rest))) := by
  -- behind every pass all nestings are closed again, so there is room for the whole bound
  obtain ⟨i, hrest, hcomes⟩ := follows_reader { s with
    task := .enter (some .equality), frames := .statement make missing :: s.frames } rest rfl
    hdepth hleft
  rw [Stmt.readBody]
  cases hread : Expr.reader.read rest with
  | error m =>
    rw [hread] at hrest hcomes
    exact ⟨i, hrest, hcomes.trans (Comes.one tokens _)⟩
  | ok found =>
    obtain ⟨e, more⟩ := found
    rw [hread] at hrest hcomes
    simp only
    cases hexpect : expect (.symbol .semicolon) missing more with
    | ok more' =>
      obtain ⟨hclose, hmore⟩ := State.close_of_expect_ok (s := { s with
        current := i, task := .give (.ok e), frames := .statement make missing :: s.frames })
        hrest hexpect
      refine ⟨i + 1, hmore, hcomes.trans (Comes.step ?_)⟩
      simp only [given, Except.map, Except.mapError, Parser.step, State.receive]
      rw [hclose]
      exact Comes.refl _
    | error m =>
      refine ⟨i, expect_error hexpect ▸ hrest, hcomes.trans (Comes.step ?_)⟩
      simp only [given, Except.map, Except.mapError, Parser.step, State.receive]
      rw [State.close_of_expect_error (s := { s with
        current := i, task := .give (.ok e), frames := .statement make missing :: s.frames })
        hrest (by decide) hexpect]
      -- the fault goes to the frame of the statement, as one in the expression does
      exact Comes.one tokens _

theorem comes_statement (htask : s.task = .statement) (hdepth : s.depth = 0)
    (hleft : Left tokens marker s.current rest) :
    ∃ i, Left tokens marker i (leftOver (Stmt.read rest)) ∧
      Comes tokens s (s.behind i (given marker (Stmt.read rest))) := by
  obtain ⟨t, ht⟩ := hleft.exists_getElem?
  have hstep := Comes.look (by rw [Parser.step, htask]) ht
  by_cases hprint : t.kind = .keyword .print_
  · rw [if_pos hprint] at hstep
    cases rest with
    | nil =>
      -- the marker is no keyword
      obtain rfl : marker = t := Option.some.inj (hleft.getElem?_nil.symm.trans ht)
      simp [Token.kind, Token.meaning_of_isEnding hleft.marker_ends, Meaning.kind] at hprint
    | cons u more =>
      obtain rfl : u = t := Option.some.inj (hleft.getElem?_cons.symm.trans ht)
      rw [State.advance_eq hleft.isEnding_eq_false] at hstep
      obtain ⟨i, hrest, hcomes⟩ := comes_body (s := { s with current := s.current + 1 }) .print
        .expectedSemicolonAfterValue hdepth hleft.next
      rw [State.behind_with] at hcomes
      rw [Stmt.read, if_pos hprint]
      exact ⟨i, hrest, hstep.trans hcomes⟩
  · rw [if_neg hprint] at hstep
    obtain ⟨i, hrest, hcomes⟩ :=
      comes_body .expression .expectedSemicolonAfterExpression hdepth hleft
    have hread : Stmt.read rest =
        Stmt.readBody .expression .expectedSemicolonAfterExpression rest := by
      cases rest with
      | nil => rfl
      | cons u more =>
        obtain rfl : u = t := Option.some.inj (hleft.getElem?_cons.symm.trans ht)
        rw [Stmt.read, if_neg hprint]
    rw [hread]
    exact ⟨i, hrest, hstep.trans hcomes⟩

theorem comes_resume (htask : s.task = .resume) {last : Token}
    (hlast : tokens[s.current - 1]? = some last) (hleft : Left tokens marker s.current rest) :
    ∃ i, Left tokens marker i (resume last rest) ∧
      Comes tokens s { s with current := i, task := .program } := by
  induction rest generalizing s last with
  | nil =>
    have hstep := Comes.look (by rw [Parser.step, htask]) hleft.getElem?_nil
    rw [if_pos hleft.marker_ends] at hstep
    exact ⟨s.current, hleft, hstep⟩
  | cons t more ih =>
    have hopen := hleft.isEnding_eq_false
    have hending : ¬ t.isEnding = true := by
      rw [hopen]
      exact Bool.false_ne_true
    rw [resume]
    have hstep := Comes.look (by rw [Parser.step, htask]) hleft.getElem?_cons
    rw [if_neg hending, State.lookBack_of_getElem? hlast] at hstep
    by_cases hstop : (decide (last.kind = .symbol .semicolon) || t.beginsStatement) = true
    · rw [if_pos hstop] at hstep ⊢
      exact ⟨s.current, hleft, hstep⟩
    · rw [if_neg hstop, State.advance_eq hopen] at hstep
      rw [if_neg hstop]
      obtain ⟨i, hrest, hcomes⟩ := ih (s := { s with current := s.current + 1 }) htask
        hleft.getElem?_cons hleft.next
      exact ⟨i, hrest, hstep.trans hcomes⟩

theorem comes_recover (htask : s.task = .recover) (hleft : Left tokens marker s.current rest) :
    ∃ i, Left tokens marker i (recover rest) ∧
      Comes tokens s { s with current := i, task := .program } := by
  cases rest with
  | nil =>
    have hstep := Comes.look (by rw [Parser.step, htask]) hleft.getElem?_nil
    rw [State.advance, if_pos hleft.marker_ends] at hstep
    -- at the marker nothing is skipped, and there is nothing more to skip
    refine ⟨s.current, hleft, hstep.trans (Comes.step ?_)⟩
    simp only [Parser.step, State.look, hleft.getElem?_nil, if_pos hleft.marker_ends]
    exact Comes.refl _
  | cons t more =>
    have hstep := Comes.look (by rw [Parser.step, htask]) hleft.getElem?_cons
    rw [State.advance_eq hleft.isEnding_eq_false] at hstep
    obtain ⟨i, hrest, hcomes⟩ := comes_resume (s := { s with
      current := s.current + 1, task := .resume }) rfl hleft.getElem?_cons hleft.next
    exact ⟨i, hrest, hstep.trans hcomes⟩

/-- In front of a token the parser of a program makes a pass. -/
theorem comes_pass (htask : s.task = .program) (hdepth : s.depth = 0)
    (hleft : Left tokens marker s.current rest) (hne : rest ≠ []) :
    ∃ i, Left tokens marker i (leftOver (Stmt.read rest)) ∧
      Comes tokens s (s.behind i (given marker (Stmt.read rest))) := by
  cases rest with
  | nil => exact absurd rfl hne
  | cons t more =>
    have hending : ¬ t.isEnding = true := by
      rw [hleft.isEnding_eq_false]
      exact Bool.false_ne_true
    obtain ⟨i, hrest, hcomes⟩ :=
      comes_statement (s := { s with task := .statement }) rfl hdepth hleft
    have hstep := Comes.look (by rw [Parser.step, htask]) hleft.getElem?_cons
    rw [if_neg hending] at hstep
    rw [State.behind_with] at hcomes
    exact ⟨i, hrest, hstep.trans hcomes⟩

/-- The parser of a program goes through the passes: what they find is put behind what was found. -/
theorem comes_program (htask : s.task = .program) (hdepth : s.depth = 0)
    (hleft : Left tokens marker s.current rest) :
    ∃ s', Comes tokens s s' ∧ s'.task = .finished s'.outcome ∧
      s'.program = s.program ++ (passes rest).filterMap statement? ∧
      s'.faults = s.faults ++ ((passes rest).filterMap misfit?).map (·.diagnostic marker) := by
  induction rest using Program.passes_induction generalizing s with
  | nil =>
    have hstep := Comes.look (by rw [Parser.step, htask]) hleft.getElem?_nil
    rw [if_pos hleft.marker_ends] at hstep
    exact ⟨_, hstep, rfl, by simp [passes], by simp [passes]⟩
  | statement rest stmt more hread ih =>
    have hne : rest ≠ [] := by
      rintro rfl
      exact Nat.not_lt_zero _ ((Stmt.read_suffix []).1 _ _ hread).2
    obtain ⟨i, hmore, hpass⟩ := comes_pass htask hdepth hleft hne
    rw [hread] at hmore hpass
    obtain ⟨s', hcomes, hfinished, hprogram, hfaults⟩ :=
      ih (s := s.behind i (.ok stmt)) rfl hdepth hmore
    refine ⟨s', hpass.trans hcomes, hfinished, ?_, ?_⟩
    · rw [hprogram, Program.passes_of_read_ok hread]
      exact List.append_assoc ..
    · rw [hfaults, Program.passes_of_read_ok hread, List.filterMap_cons_none rfl]
      rfl
  | fault rest m hne hread ih =>
    obtain ⟨i, hmore, hpass⟩ := comes_pass htask hdepth hleft hne
    rw [hread] at hmore hpass
    obtain ⟨j, hnext, hrecover⟩ :=
      comes_recover (s := s.behind i (.error (m.diagnostic marker))) rfl hmore
    obtain ⟨s', hcomes, hfinished, hprogram, hfaults⟩ :=
      ih (s := { s.behind i (.error (m.diagnostic marker)) with current := j, task := .program })
        rfl hdepth hnext
    refine ⟨s', hpass.trans (hrecover.trans hcomes), hfinished, ?_, ?_⟩
    · rw [hprogram, Program.passes_of_read_error hne hread, List.filterMap_cons_none rfl]
      rfl
    · rw [hfaults, Program.passes_of_read_error hne hread]
      exact List.append_assoc ..

/-- What was found is the program that the body is read as, or all its faults. -/
theorem comes_ofProgram (hleft : Left tokens marker 0 body) :
    ∃ s, Comes tokens .ofProgram s ∧
      s.task = .finished (.program ((Program.readAll body).mapError
        (·.map (·.diagnostic marker)))) := by
  obtain ⟨s, hcomes, hfinished, hprogram, hfaults⟩ :=
    comes_program (s := .ofProgram) rfl rfl hleft
  refine ⟨s, hcomes, ?_⟩
  rw [hfinished, State.outcome, hprogram, hfaults, Program.readAll]
  cases (passes body).filterMap misfit? <;> rfl

end Programs

/-! ## Terminated lists -/

section Terminated

variable {tokens : List Token}

theorem findIdx_isEnding_append {body tail : List Token} {marker : Token}
    (hbody : ∀ t ∈ body, t.isEnding = false) (hmarker : marker.isEnding = true) :
    (body ++ marker :: tail).findIdx Token.isEnding = body.length := by
  induction body with
  | nil => simp [List.findIdx_cons, hmarker]
  | cons t body ih =>
    rw [List.cons_append, List.findIdx_cons, hbody t (List.mem_cons_self ..),
      ih fun u hu => hbody u (List.mem_cons_of_mem _ hu)]
    rfl

theorem findIdx_isEnding_lt (hterminated : Terminated tokens) :
    tokens.findIdx Token.isEnding < tokens.length := by
  obtain ⟨marker, hlast, hmarker⟩ := hterminated
  exact List.findIdx_lt_length_of_exists ⟨marker, List.mem_of_getLast? hlast, hmarker⟩

/-- Both parsers begin in front of the first end marker, or at it. -/
theorem State.Inside.of_start {start : State}
    (hstart : start = .expression ∨ start = .ofProgram) : start.Inside tokens := by
  rcases hstart with rfl | rfl
  · exact ⟨Nat.zero_le _, by simp [State.expression]⟩
  · exact ⟨Nat.zero_le _, by simp [State.ofProgram]⟩

/-- A parser finds a token wherever it looks: there is one at its index and one in front of it. -/
structure State.Finds (tokens : List Token) (s : State) : Prop where
  next : ∃ t, tokens[s.current]? = some t
  last : ∃ t, tokens[s.current - 1]? = some t
  task_ne : s.task ≠ .outside

theorem State.Inside.finds {s : State} (hs : s.Inside tokens)
    (hended : tokens.findIdx Token.isEnding < tokens.length) : s.Finds tokens where
  next := exists_getElem? hended hs.current_le
  last := exists_getElem? hended (Nat.le_trans (Nat.sub_le _ 1) hs.current_le)
  task_ne := hs.task_ne

/-- The parser of an expression ends, with what the list is read as. -/
theorem finishes_expression (hterminated : Terminated tokens) :
    ∃ n found, (stateAfter tokens n .expression).task = .finished (.expression found) ∧
      Expr.ofTokens tokens = found.mapError .fault := by
  obtain ⟨body, marker, tail, rfl, hbody, hmarker, htail⟩ := hterminated.split
  obtain ⟨_, ⟨n, rfl⟩, hfinished⟩ := comes_expression ⟨⟨tail, rfl⟩, hbody, hmarker⟩
  refine ⟨n, _, hfinished, ?_⟩
  rw [Expr.ofTokens_append hbody hmarker htail]
  cases Expr.readAll body <;> rfl

/-- The parser of a program ends, with what the list is read as. -/
theorem finishes_program (hterminated : Terminated tokens) :
    ∃ n found, (stateAfter tokens n .ofProgram).task = .finished (.program found) ∧
      Program.ofTokens tokens = found.mapError .fault := by
  obtain ⟨body, marker, tail, rfl, hbody, hmarker, htail⟩ := hterminated.split
  obtain ⟨_, ⟨n, rfl⟩, hfinished⟩ := comes_ofProgram ⟨⟨tail, rfl⟩, hbody, hmarker⟩
  refine ⟨n, _, hfinished, ?_⟩
  rw [Program.ofTokens_append hbody hmarker htail]
  cases Program.readAll body <;> rfl

end Terminated

/-! ## Lists cut behind their first end marker -/

/-- A terminated list is read as its cut is: both have the same body. -/
theorem ofTokens_cut {tokens : List Token} (hterminated : Terminated tokens) :
    let cut := tokens.take (tokens.findIdx Token.isEnding + 1)
    Expr.ofTokens cut = Expr.ofTokens tokens ∧ Program.ofTokens cut = Program.ofTokens tokens := by
  obtain ⟨body, marker, tail, rfl, hbody, hmarker, htail⟩ := hterminated.split
  intro cut
  have hmarked : Terminated [marker] := ⟨marker, rfl, hmarker⟩
  have hcut : cut = body ++ [marker] := by
    simp only [cut]
    rw [findIdx_isEnding_append hbody hmarker, List.take_length_add_append, List.take_succ_cons,
      List.take_zero]
  rw [hcut]
  constructor
  · rw [Expr.ofTokens_append hbody hmarker htail, Expr.ofTokens_append hbody hmarker hmarked]
  · rw [Program.ofTokens_append hbody hmarker htail, Program.ofTokens_append hbody hmarker hmarked]

/-- **Nothing behind the first end marker is read.** The parsers of a terminated list never pass its
first end marker, so there is a token at the index they stand at and one in front of it, and every
look finds one. They end, and what they come to is what the list is read as. They go through the
same states on the list cut right behind that marker, which is read as the same. -/
theorem unread_behind_marker (tokens : List Token) (hterminated : Terminated tokens) :
    let first := tokens.findIdx Token.isEnding
    let cut := tokens.take (first + 1)
    (∀ start, start = State.expression ∨ start = State.ofProgram → ∀ n,
      let s := stateAfter tokens n start
      s.current ≤ first ∧ (∃ t, tokens[s.current]? = some t) ∧
        (∃ t, tokens[s.current - 1]? = some t) ∧ s.task ≠ .outside ∧
        stateAfter cut n start = s) ∧
    (∃ n found, (stateAfter tokens n .expression).task = .finished (.expression found) ∧
      Expr.ofTokens tokens = found.mapError .fault) ∧
    (∃ n found, (stateAfter tokens n .ofProgram).task = .finished (.program found) ∧
      Program.ofTokens tokens = found.mapError .fault) ∧
    Expr.ofTokens cut = Expr.ofTokens tokens ∧ Program.ofTokens cut = Program.ofTokens tokens := by
  intro first cut
  have hended : first < tokens.length := findIdx_isEnding_lt hterminated
  have hagree : ∀ i ≤ first, tokens[i]? = cut[i]? := fun i hi =>
    (List.getElem?_take_of_lt (Nat.lt_succ_of_le hi)).symm
  refine ⟨fun start hstart n => ?_, finishes_expression hterminated,
    finishes_program hterminated, ofTokens_cut hterminated⟩
  have hinside : start.Inside tokens := .of_start hstart
  intro s
  have hs : s.Inside tokens := hinside.stateAfter hended n
  have hfinds := hs.finds hended
  exact ⟨hs.current_le, hfinds.next, hfinds.last, hfinds.task_ne,
    (stateAfter_congr hended hagree hinside n).symm⟩

/-- The expression `nil`, with a parenthesis and a semicolon behind its end marker. -/
theorem unread_behind_marker_paren :
    let front : List Token := [⟨.keyword .nil_, "nil", 1⟩, .endMarker 1]
    let tokens : List Token :=
      front ++ [⟨.symbol .rightParen, ")", 2⟩, ⟨.symbol .semicolon, ";", 2⟩, .endMarker 3]
    Terminated tokens ∧ (∀ n, (stateAfter tokens n .expression).current ≤ 1) ∧
      Expr.ofTokens front = Expr.ofTokens tokens ∧
      Program.ofTokens front = Program.ofTokens tokens := by
  intro front tokens
  have hterminated : Terminated tokens := ⟨.endMarker 3, rfl, rfl⟩
  obtain ⟨hstates, -, -, hexpression, hprogram⟩ := unread_behind_marker tokens hterminated
  exact ⟨hterminated, fun n => (hstates _ (.inl rfl) n).1, hexpression, hprogram⟩

end Parser

end Lox
