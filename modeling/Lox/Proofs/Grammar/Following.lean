/-
Readings follow their courses.

A reader that succeeds has walked over the tokens it used up, from in front of an operand to behind
one, whatever was open around it. A reader that fails has walked up to the offending token, and
there the course is stuck: the token fits nowhere, and the place alone says what is wrong. So the
course, which knows neither levels nor trees, decides where a reading fails and with which fault.

`Course.Leads` says both of a result. It is kept when something is read in front (`prepend`) and
when something is read behind (`bind`), so every combinator of readers follows the course if its
parts do. How much may still be nested is the bound less what is open around the place, hence the
readers of all depths follow it by recursion on the depth.
-/
import Lox.Proofs.Grammar.Lockstep
import Lox.Proofs.Grammar.Standing

set_option autoImplicit false

namespace Lox

/-! ## What a reading leads to -/

/-- A reading of the tokens led from the one state to the other, over those it used up, or to a
state that refuses the rest with this fault. -/
inductive Course.Leads {σ α : Type} (c : Course σ) (bound : Nat) (Refuses : σ → Misfit → Prop)
    (start stop : σ) (tokens : List Token) : Except Misfit (α × List Token) → Prop
  | ok {a : α} {rest : List Token} (used : List Token) : tokens = used ++ rest →
      c.walk? bound start used = some stop → Leads c bound Refuses start stop tokens (.ok (a, rest))
  | error {m : Misfit} (used : List Token) (s : σ) : tokens = used ++ m.rest →
      c.walk? bound start used = some s → Refuses s m →
      Leads c bound Refuses start stop tokens (.error m)

namespace Course.Leads

variable {σ α β : Type} {c : Course σ} {bound : Nat} {Refuses : σ → Misfit → Prop}
  {start middle stop : σ} {front tokens : List Token} {x : Except Misfit (α × List Token)}

theorem prepend (hfront : c.walk? bound start front = some middle)
    (h : c.Leads bound Refuses middle stop tokens x) :
    c.Leads bound Refuses start stop (front ++ tokens) x := by
  cases h with
  | ok used htokens hwalk =>
    refine .ok (front ++ used) ?_ (walk?_trans hfront hwalk)
    rw [htokens, List.append_assoc]
  | error used s htokens hwalk hrefuses =>
    refine .error (front ++ used) s ?_ (walk?_trans hfront hwalk) hrefuses
    rw [htokens, List.append_assoc]

theorem cons {t : Token} (hstep : c.step? bound start t = some middle)
    (h : c.Leads bound Refuses middle stop tokens x) :
    c.Leads bound Refuses start stop (t :: tokens) x := by
  have hfront : c.walk? bound start [t] = some middle := walk?_cons_of_step? hstep rfl
  exact prepend hfront h

/-- Where the one reading led, the next one goes on. -/
theorem bind {next : α × List Token → Except Misfit (β × List Token)}
    (h : c.Leads bound Refuses start middle tokens x)
    (hnext : ∀ a rest, x = .ok (a, rest) →
      c.Leads bound Refuses middle stop rest (next (a, rest))) :
    c.Leads bound Refuses start stop tokens (x >>= next) := by
  cases h with
  | ok used htokens hwalk =>
    rw [htokens]
    exact prepend hwalk (hnext _ _ rfl)
  | error used s htokens hwalk hrefuses => exact .error used s htokens hwalk hrefuses

/-- A result of nothing more that is read. -/
theorem done {a : α} : c.Leads bound Refuses start start tokens (.ok (a, tokens)) :=
  .ok [] rfl rfl

/-- A token that is asked for leads on, and it is refused if it is another one. -/
theorem expect {kind : Kind} {cause : SyntaxFault} {a : α}
    (hstep : ∀ t, t.kind = kind → c.step? bound start t = some stop)
    (hrefuses : (∀ t ∈ tokens.head?, ¬ t.kind = kind) → Refuses start ⟨cause, tokens⟩) :
    c.Leads bound Refuses start stop tokens
      (Lox.expect kind cause tokens >>= fun rest => .ok (a, rest)) := by
  cases tokens with
  | nil =>
    refine .error [] start rfl rfl (hrefuses ?_)
    rintro t ⟨⟩
  | cons t more =>
    rw [Lox.expect]
    by_cases hkind : t.kind = kind
    · rw [if_pos hkind]
      exact cons (hstep t hkind) done
    · rw [if_neg hkind]
      refine .error [] start rfl rfl (hrefuses fun u hu => ?_)
      rwa [← Option.some.inj hu]

end Course.Leads

/-! ## Readers of expressions -/

/-- In this place of an expression the course is stuck in front of the rest, with this fault. What
has to follow the expression plays no part. -/
structure Standing.Refuses (bound : Nat) (standing : Standing) (m : Misfit) : Prop where
  cause : ∀ missing, m.cause = standing.faultWithin bound missing
  refused : ∀ t ∈ m.rest.head?, Expr.course.step? bound standing t = none
  inner : standing ≠ .behind []

theorem Standing.faultWithin_of_isWithin {bound : Nat} {standing : Standing}
    (h : standing.isWithin bound = true) (missing : SyntaxFault) :
    standing.faultWithin bound missing = standing.fault missing :=
  if_pos h

/-- Where an expression was read to its end, no binary operator comes. -/
theorem StopsAt.level?_eq_none {rest : List Token} (h : StopsAt 0 rest) :
    ∀ t ∈ rest.head?, t.level? = none := by
  intro t ht
  cases hlevel : t.level? with
  | none => rfl
  | some level =>
    exact absurd (h t ht level ((t.level?_eq_some_iff level).1 hlevel)) (Nat.not_lt_zero _)

namespace Reader

/-- The reader follows the course of expressions, with this much open around what it reads. -/
structure Follows (reader : Reader) (bound : Nat) (around : List Enclosure) : Prop where
  leads : ∀ tokens, Expr.course.Leads bound (Standing.Refuses bound) (.before around)
    (.behind (settle around)) tokens (reader.read tokens)

variable {bound : Nat} {around : List Enclosure} {operand nested : Reader} {level : Level}

/-! ### Chains -/

/-- A chain that has an operand in hand stands behind it, and so it does whenever it has read
another one. -/
theorem join_leads (h : operand.Follows bound around) (hsettled : settle around = around)
    (left : Expr) (tokens : List Token) :
    Expr.course.Leads bound (Standing.Refuses bound) (.behind around) (.behind around) tokens
      (join level operand left tokens) := by
  induction hlength : tokens.length using Nat.strongRecOn generalizing left tokens with
  | ind n ih =>
    cases tokens with
    | nil =>
      rw [join]
      exact .done
    | cons operator more =>
      rw [join_cons]
      by_cases hlevel : operator.level? = some level
      · rw [if_pos hlevel]
        have hoperand := h.leads more
        rw [hsettled] at hoperand
        refine .cons (Standing.step?_operator (by rw [hlevel]; rfl)) (hoperand.bind ?_)
        intro right rest hread
        have hshorter := operand.uses_lt hread
        rw [List.length_cons] at hlength
        exact ih rest.length (by omega) _ rest rfl
      · rw [if_neg hlevel]
        exact .done

theorem chain_follows (h : operand.Follows bound around) (hsettled : settle around = around)
    (level : Level) : (operand.chain level).Follows bound around where
  leads tokens := by
    have hoperand := h.leads tokens
    rw [hsettled] at hoperand ⊢
    rw [chain_read]
    exact hoperand.bind fun left rest _ => join_leads h hsettled left rest

/-- What is read inside a pair of parentheses, or inside nothing, no sign waits for. -/
theorem allLevels_follows (h : operand.Follows bound around) (hsettled : settle around = around) :
    operand.allLevels.Follows bound around := by
  have hfactor := chain_follows h hsettled .factor
  have hterm := chain_follows hfactor hsettled .term
  have hcomparison := chain_follows hterm hsettled .comparison
  exact chain_follows hcomparison hsettled .equality

/-! ### Operands -/

/-- Where the tokens end or one comes that no operand begins with, an operand is missing. -/
theorem refuses_expectedExpression (hwithin : around.length < bound) {tokens : List Token}
    (hnone : ∀ t ∈ tokens.head?, Expr.course.step? bound (.before around) t = none) :
    (Standing.before around).Refuses bound ⟨.expectedExpression, tokens⟩ where
  cause missing := by
    have hwithin' : (Standing.before around).isWithin bound = true := decide_eq_true hwithin
    rw [Standing.faultWithin_of_isWithin hwithin']
    rfl
  refused := hnone
  inner := by
    rintro ⟨⟩

/-- Behind an expression in parentheses the second one is missing if another token comes. -/
theorem refuses_missingRightParen {rest : List Token} (hstops : StopsAt 0 rest)
    (hkind : ∀ t ∈ rest.head?, ¬ t.kind = .symbol .rightParen) :
    (Standing.behind (.parentheses :: around)).Refuses bound ⟨.missingRightParen, rest⟩ where
  cause missing := by
    rw [Standing.faultWithin_of_isWithin rfl, Standing.fault, if_pos (List.mem_cons_self ..)]
  refused t ht :=
    Standing.step?_behind_eq_none (hstops.level?_eq_none t ht) fun _ => hkind t ht
  inner := by
    rintro ⟨⟩

/-- The rest of a pair of parentheses is read from behind the first one. -/
theorem readGroup_leads {inner : Reader} (h : inner.Follows bound (.parentheses :: around))
    (hstops : ∀ {tokens e rest}, inner.read tokens = .ok (e, rest) → StopsAt 0 rest)
    (tokens : List Token) :
    Expr.course.Leads bound (Standing.Refuses bound) (.before (.parentheses :: around))
      (.behind (settle around)) tokens (inner.readGroup tokens) := by
  have hinner := h.leads tokens
  rw [settle_of_parentheses] at hinner
  rw [readGroup_eq_bind]
  refine hinner.bind fun e rest hread => ?_
  exact .expect (fun t => Standing.step?_rightParen) (refuses_missingRightParen (hstops hread))

/-- An operand follows the course if what is nested in it does, one enclosure further in. -/
theorem operand_follows (hwithin : around.length < bound)
    (hsign : nested.Follows bound (.sign :: around))
    (hgroup : nested.Follows bound (.parentheses :: around))
    (hstops : ∀ {tokens e rest}, nested.allLevels.read tokens = .ok (e, rest) → StopsAt 0 rest) :
    nested.operand.Follows bound around where
  leads tokens := by
    simp only [Reader.operand]
    cases tokens with
    | nil =>
      refine .error [] _ rfl rfl (refuses_expectedExpression hwithin ?_)
      rintro t ⟨⟩
    | cons t more =>
      by_cases hunary : t.isUnary = true
      · -- the sign ends with its operand, as all others in front of it do
        have hoperand := hsign.leads more
        rw [settle_of_sign] at hoperand
        rw [readOperand_of_isUnary hunary]
        exact .cons (Standing.step?_sign hwithin hunary) (hoperand.bind fun e rest _ => .done)
      rw [readOperand, if_neg hunary]
      by_cases hparen : t.kind = .symbol .leftParen
      · rw [if_pos hparen]
        have hinner := allLevels_follows hgroup (settle_of_parentheses around)
        exact .cons (Standing.step?_leftParen hwithin hunary hparen)
          (readGroup_leads hinner hstops more)
      rw [if_neg hparen]
      cases hvalue : t.literal? with
      | some value =>
        exact .cons (Standing.step?_literal hwithin hunary hparen (by rw [hvalue]; rfl)) .done
      | none =>
        refine .error [] _ rfl rfl (refuses_expectedExpression hwithin fun u hu => ?_)
        obtain rfl : t = u := Option.some.inj hu
        exact Standing.step?_before_eq_none hunary hparen hvalue

/-- With nothing left to nest in, the bound is reached before any token is looked at. -/
theorem exhausted_follows : exhausted.Follows around.length around where
  leads tokens := by
    have hbound : ¬ (Standing.before around).isWithin around.length = true := by
      rw [Standing.isWithin, decide_eq_true_eq]
      exact Nat.lt_irrefl _
    refine .error [] _ rfl rfl ⟨fun _ => (if_neg hbound).symm, fun _ _ => if_neg hbound, ?_⟩
    rintro ⟨⟩

/-- The operands of each depth follow the course wherever the bound leaves just this depth. -/
theorem operands_follows (depth : Nat) :
    ∀ around : List Enclosure, around.length + depth = bound →
      (operands depth).Follows bound around := by
  induction depth with
  | zero =>
    rintro around rfl
    exact exhausted_follows
  | succ depth ih =>
    intro around hbound
    have hnested : ∀ enclosure, (operands depth).Follows bound (enclosure :: around) := by
      intro enclosure
      refine ih (enclosure :: around) ?_
      rw [List.length_cons]
      omega
    exact operand_follows (by omega) (hnested .sign) (hnested .parentheses)
      fun hread => ((expressions_exact depth).sound hread).2.1

end Reader

theorem Expr.reader_follows : Expr.reader.Follows maxNesting [] := by
  have hoperands : (Reader.operands maxNesting).Follows maxNesting [] :=
    Reader.operands_follows maxNesting [] (Nat.zero_add _)
  exact Reader.allLevels_follows hoperands rfl

/-! ## Whole texts -/

/-- The reading of some tokens ends in this state with this fault: the course leads there, where no
token fits and the tokens may not end. -/
structure Course.StuckAt {σ : Type} (c : Course σ) (bound : Nat) (s : σ) (m : Misfit) : Prop where
  cause : m.cause = (c.standing s).faultWithin bound (c.missing s)
  refused : ∀ t ∈ m.rest.head?, c.step? bound s t = none
  unfinished : m.rest = [] → ¬ c.Complete s

theorem Standing.Refuses.stuckAt {bound : Nat} {standing : Standing} {m : Misfit}
    (h : standing.Refuses bound m) : Expr.course.StuckAt bound standing m where
  cause := h.cause _
  refused := h.refused
  unfinished _ := h.inner

/-- Where an expression is complete and no token may follow, only its end is in order. -/
theorem StopsAt.step?_eq_none {bound : Nat} {rest : List Token} (h : StopsAt 0 rest) :
    ∀ t ∈ rest.head?, Expr.course.step? bound (.behind []) t = none := by
  intro t ht
  refine Standing.step?_behind_eq_none (h.level?_eq_none t ht) ?_
  rintro ⟨outer, ⟨⟩⟩

/-- **Expressions follow their course.** The tokens of an expression are a walk to its end, and a
fault is where the walk is stuck. -/
theorem Expr.readAll_follows (tokens : List Token) :
    (∀ {e}, Expr.readAll tokens = .ok e →
      Expr.course.walk? maxNesting (.before []) tokens = some (.behind [])) ∧
    ∀ {m}, Expr.readAll tokens = .error m →
      ∃ front s, tokens = front ++ m.rest ∧
        Expr.course.walk? maxNesting (.before []) front = some s ∧
        Expr.course.StuckAt maxNesting s m := by
  have hleads := reader_follows.leads tokens
  rw [readAll]
  cases hread : reader.read tokens with
  | error m =>
    rw [hread] at hleads
    refine ⟨fun {e} hall => (by cases hall), fun {m'} hall => ?_⟩
    obtain rfl := Except.error.inj hall
    cases hleads with
    | error used s htokens hwalk hrefuses => exact ⟨used, s, htokens, hwalk, hrefuses.stuckAt⟩
  | ok found =>
    obtain ⟨e, rest⟩ := found
    rw [hread] at hleads
    obtain ⟨used, htokens, hwalk⟩ := hleads
    have hstops : StopsAt 0 rest := (reader_exact.sound hread).2.1
    cases rest with
    | nil =>
      rw [List.append_nil] at htokens
      exact ⟨fun {e'} _ => htokens ▸ hwalk, fun {m} hall => by cases hall⟩
    | cons t rest =>
      refine ⟨fun {e} hall => (by cases hall), fun {m} hall => ?_⟩
      obtain rfl := Except.error.inj hall
      exact ⟨used, _, htokens, hwalk, rfl, hstops.step?_eq_none, by rintro ⟨⟩⟩

/-! ## Statements -/

/-- What leads through an expression leads through the expression of a statement. -/
theorem Course.Leads.inside {α : Type} {prints : Bool} {standing stop : Standing}
    {tokens : List Token} {x : Except Misfit (α × List Token)}
    (h : Expr.course.Leads maxNesting (Standing.Refuses maxNesting) standing stop tokens x) :
    Program.course.Leads maxNesting (Program.course.StuckAt maxNesting) (.inside prints standing)
      (.inside prints stop) tokens x := by
  cases h with
  | ok used htokens hwalk => exact .ok used htokens (Spot.walk?_inside hwalk)
  | error used place htokens hwalk hrefuses =>
    refine .error used (.inside prints place) htokens (Spot.walk?_inside hwalk) ⟨?_, ?_, ?_⟩
    · exact hrefuses.cause _
    · intro t ht
      exact Spot.step?_inside_eq_none (hrefuses.refused t ht) fun h => hrefuses.inner h.1
    · rintro - ⟨⟩

/-- What fits nowhere at the beginning of an expression is no beginning of a statement either, if no
keyword comes first. -/
theorem Course.StuckAt.front {m : Misfit} {t : Token} {more : List Token}
    (h : Program.course.StuckAt maxNesting (.inside false (.before [])) m)
    (hrest : m.rest = t :: more) (hkind : ¬ t.kind = .keyword .print_) :
    Program.course.StuckAt maxNesting .front m where
  cause := h.cause
  refused u hu := by
    obtain rfl : t = u := by simpa [hrest] using hu
    rw [Spot.step?_front hkind]
    exact h.refused t hu
  unfinished hnil := by
    rw [hrest] at hnil
    cases hnil

namespace Stmt

/-- Behind the expression of a statement a semicolon is missing if another token comes. -/
theorem stuckAt_missingBehind {prints : Bool} {rest : List Token} (hstops : StopsAt 0 rest)
    (hkind : ∀ t ∈ rest.head?, ¬ t.kind = .symbol .semicolon) :
    Program.course.StuckAt maxNesting (.inside prints (.behind []))
      ⟨Spot.missingBehind prints, rest⟩ where
  cause := rfl
  refused t ht := Spot.step?_inside_eq_none (hstops.step?_eq_none t ht) fun h => hkind t ht h.2
  unfinished := by
    rintro - ⟨⟩

theorem readBody_leads (make : Expr → Stmt) (prints : Bool) (tokens : List Token) :
    Program.course.Leads maxNesting (Program.course.StuckAt maxNesting)
      (.inside prints (.before [])) .front tokens
      (readBody make (Spot.missingBehind prints) tokens) := by
  rw [readBody_eq_bind]
  refine (Expr.reader_follows.leads tokens).inside.bind fun e rest hread => ?_
  have hstops : StopsAt 0 rest := (Expr.reader_exact.sound hread).2.1
  exact .expect (fun t => Spot.step?_semicolon) (stuckAt_missingBehind hstops)

/-- In front of a statement the course goes as in its expression, if no keyword comes first. -/
theorem leads_front {t : Token} {more : List Token} (hkind : ¬ t.kind = .keyword .print_)
    {x : Except Misfit (Stmt × List Token)}
    (h : Program.course.Leads maxNesting (Program.course.StuckAt maxNesting)
      (.inside false (.before [])) .front (t :: more) x) :
    Program.course.Leads maxNesting (Program.course.StuckAt maxNesting) .front .front (t :: more)
      x := by
  have hwalk_front : ∀ {used rest : List Token} {s : Spot}, t :: more = used ++ rest → used ≠ [] →
      Program.course.walk? maxNesting (.inside false (.before [])) used = some s →
      Program.course.walk? maxNesting .front used = some s := by
    intro used rest s htokens hused hwalk
    obtain ⟨u, used, rfl⟩ := List.exists_cons_of_ne_nil hused
    obtain rfl : t = u := (List.cons.inj htokens).1
    rw [Spot.walk?_front hkind, hwalk]
  cases h with
  | ok used htokens hwalk =>
    refine .ok used htokens (hwalk_front htokens ?_ hwalk)
    rintro rfl
    cases hwalk
  | @error m used s htokens hwalk hstuck =>
    by_cases hused : used = []
    · -- nothing was used up: the fault is in front of the statement
      subst hused
      obtain rfl : Spot.inside false (.before []) = s := Option.some.inj hwalk
      exact .error [] .front htokens rfl (hstuck.front htokens.symm hkind)
    · exact .error used s htokens (hwalk_front htokens hused hwalk) hstuck

theorem read_leads {tokens : List Token} (hne : tokens ≠ []) :
    Program.course.Leads maxNesting (Program.course.StuckAt maxNesting) .front .front tokens
      (read tokens) := by
  obtain ⟨t, more, rfl⟩ := List.exists_cons_of_ne_nil hne
  rw [read]
  by_cases hkind : t.kind = .keyword .print_
  · rw [if_pos hkind]
    exact .cons (Spot.step?_print (by decide) hkind) (readBody_leads .print true more)
  · rw [if_neg hkind]
    exact leads_front hkind (readBody_leads .expression false (t :: more))

end Stmt

/-- **Programs follow their course.** The tokens of a program are a walk from statement to
statement, and its first fault is where the walk is stuck. -/
theorem Program.readAll_follows (tokens : List Token) :
    (∀ {p}, Program.readAll tokens = .ok p →
      Program.course.walk? maxNesting .front tokens = some .front) ∧
    ∀ {m ms}, Program.readAll tokens = .error (m :: ms) →
      ∃ front s, tokens = front ++ m.rest ∧
        Program.course.walk? maxNesting .front front = some s ∧
        Program.course.StuckAt maxNesting s m := by
  induction tokens using passes_induction with
  | nil =>
    rw [readAll_nil]
    exact ⟨fun {p} _ => rfl, fun {m ms} hall => by cases hall⟩
  | statement tokens s rest hread ih =>
    have hne : tokens ≠ [] := by
      rintro rfl
      exact Nat.not_lt_zero _ ((Stmt.read_suffix []).1 s rest hread).2
    have hleads := Stmt.read_leads hne
    rw [hread] at hleads
    obtain ⟨used, rfl, hwalk⟩ := hleads
    rw [readAll_of_read_ok hread]
    cases hrest : readAll rest with
    | ok p =>
      exact ⟨fun {p'} _ => Course.walk?_trans hwalk (ih.1 hrest), fun {m ms} h => by cases h⟩
    | error found =>
      refine ⟨fun {p'} h => (by cases h), fun {m ms} h => ?_⟩
      obtain rfl : found = m :: ms := Except.error.inj h
      obtain ⟨front, place, rfl, hfront, hstuck⟩ := ih.2 hrest
      exact ⟨used ++ front, place, by simp, Course.walk?_trans hwalk hfront, hstuck⟩
  | fault tokens found hne hread _ =>
    have hleads := Stmt.read_leads hne
    rw [hread] at hleads
    rw [readAll_of_read_error hne hread]
    refine ⟨fun {p} h => (by cases h), fun {m ms} h => ?_⟩
    obtain ⟨rfl, -⟩ := List.cons.inj (Except.error.inj h)
    cases hleads with
    | error used place htokens hwalk hstuck => exact ⟨used, place, htokens, hwalk, hstuck⟩

end Lox
