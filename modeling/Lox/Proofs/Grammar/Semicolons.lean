/-
Expressions and statements of one expression agree.

An expression may be read by itself, up to the end of the text, or as a statement, up to a
semicolon. What stands behind the expression is all that the two readings differ in. A semicolon
goes on with no expression, so the tokens in front of it are an expression in the one reading just
when they are one in the other.

Where they are none, both readings follow the same course up to the offending token and are stuck
at the same place. The semicolon offends where the end of the text did, and the fault is the same
but for one: where the expression is complete and goes on, the end of the text is missing in the
first reading and the semicolon in the second one.
-/
import Lox.Proofs.Grammar.Earliest

set_option autoImplicit false

namespace Lox

/-! ## Accepted tokens -/

theorem Stmt.derivesFrom_expression_iff {e : Expr} {body : List Token} {semicolon : Token}
    (hsemicolon : semicolon.meaning = .symbol .semicolon) :
    Stmt.DerivesFrom (.expression e) (body ++ [semicolon]) ↔ e.DerivesFrom body := by
  constructor
  · intro h
    generalize htokens : body ++ [semicolon] = tokens at h
    cases h with
    | @expression e front last he _ =>
      obtain ⟨rfl, -⟩ := List.append_inj' htokens rfl
      exact he
  · intro he
    exact .expression he hsemicolon

theorem Stmt.derivesFrom_print_iff {e : Expr} {body : List Token} {keyword semicolon : Token}
    (hkeyword : keyword.meaning = .keyword .print_)
    (hsemicolon : semicolon.meaning = .symbol .semicolon) :
    Stmt.DerivesFrom (.print e) (keyword :: body ++ [semicolon]) ↔ e.DerivesFrom body := by
  constructor
  · intro h
    generalize htokens : keyword :: body ++ [semicolon] = tokens at h
    cases h with
    | @print e first last front _ he _ =>
      obtain ⟨hfront, -⟩ := List.append_inj' htokens rfl
      rw [(List.cons.inj hfront).2]
      exact he
  · intro he
    exact .print hkeyword he hsemicolon

theorem Program.derivesFrom_singleton_iff {s : Stmt} {tokens : List Token} :
    Program.DerivesFrom [s] tokens ↔ s.DerivesFrom tokens := by
  constructor
  · intro h
    cases h with
    | cons hs hnil =>
      cases hnil
      rw [List.append_nil]
      exact hs
  · intro hs
    have hprogram : Program.DerivesFrom [s] (tokens ++ []) := .cons hs .nil
    rwa [List.append_nil] at hprogram

/-! ## Faults -/

/-- The fault in an expression as the statement has it, which the semicolon ends and not the end of
the text. -/
def SyntaxFault.inStatement : SyntaxFault → SyntaxFault
  | expectedEndOfExpression => expectedSemicolonAfterExpression
  | cause => cause

/-- Only the fault about the end is worded differently. -/
theorem SyntaxFault.inStatement_message (cause : SyntaxFault) :
    cause.inStatement.message =
      if cause.message = "Expect end of expression." then "Expect ';' after expression."
      else cause.message := by
  cases cause <;> rfl

/-- In the same place of an expression the same is wrong, whatever ends it. -/
theorem Standing.inStatement_faultWithin (standing : Standing) (bound : Nat) :
    (standing.faultWithin bound .expectedEndOfExpression).inStatement =
      standing.faultWithin bound (Spot.missingBehind false) := by
  rw [faultWithin, faultWithin]
  by_cases hwithin : standing.isWithin bound = true
  · rw [if_pos hwithin, if_pos hwithin]
    cases standing with
    | before around => rfl
    | behind around =>
      rw [fault, fault]
      by_cases hopen : .parentheses ∈ around
      · rw [if_pos hopen, if_pos hopen]
        rfl
      · rw [if_neg hopen, if_neg hopen]
        rfl
  · rw [if_neg hwithin, if_neg hwithin]
    rfl

section Stuck

variable {standing : Standing} {cause : SyntaxFault} {rest : List Token} {semicolon : Token}

/-- Where an expression is stuck, its statement is, with the semicolon behind the rest. At the end
of the text it is the semicolon that does not fit: the expression is not complete there. -/
theorem Course.StuckAt.inside (hstuck : Expr.course.StuckAt maxNesting standing ⟨cause, rest⟩)
    (hrest : ∀ t ∈ rest, t.meaning ≠ .symbol .semicolon)
    (hsemicolon : semicolon.meaning = .symbol .semicolon) :
    Program.course.StuckAt maxNesting (.inside false standing)
      ⟨cause.inStatement, rest ++ [semicolon]⟩ where
  cause := by
    have hcause : cause = standing.faultWithin maxNesting .expectedEndOfExpression := hstuck.cause
    rw [hcause]
    exact standing.inStatement_faultWithin maxNesting
  refused t ht := by
    cases rest with
    | nil =>
      obtain rfl : semicolon = t := Option.some.inj ht
      have hkind := (semicolon.kind_eq_symbol_iff _).2 hsemicolon
      have hnone : Expr.course.step? maxNesting standing semicolon = none :=
        Standing.step?_eq_none (standing.next?_semicolon hkind)
      exact Spot.step?_inside_eq_none hnone fun h => hstuck.unfinished rfl h.1
    | cons u more =>
      obtain rfl : u = t := Option.some.inj ht
      refine Spot.step?_inside_eq_none (hstuck.refused u rfl) fun h => ?_
      exact hrest u (List.mem_cons_self ..) ((u.kind_eq_symbol_iff _).1 h.2)
  unfinished hnil := absurd hnil (List.append_ne_nil_of_right_ne_nil _ (List.cons_ne_nil _ _))

end Stuck

/-- A text that fails to be an expression fails to be a program with a semicolon behind it, first at
the same place. -/
theorem Program.readAll_of_readAll_error {body : List Token} {semicolon : Token} {i : Nat}
    {cause : SyntaxFault} (hbody : ∀ t ∈ body, t.meaning ≠ .symbol .semicolon)
    (hhead : ∀ t ∈ body.head?, t.meaning ≠ .keyword .print_)
    (hsemicolon : semicolon.meaning = .symbol .semicolon) (hi : i ≤ body.length)
    (hfails : Expr.readAll body = .error ⟨cause, body.drop i⟩) :
    ∃ ms, Program.readAll (body ++ [semicolon]) =
      .error (⟨cause.inStatement, (body ++ [semicolon]).drop i⟩ :: ms) := by
  obtain ⟨standing, hwalk, hstuck⟩ := Expr.course_decides.faults_iff.1 hfails
  have hinside := hstuck.inside (fun t ht => hbody t (List.mem_of_mem_drop ht)) hsemicolon
  have hwalk' : Program.course.walk? maxNesting (.inside false (.before [])) (body.take i) =
      some (.inside false standing) := Spot.walk?_inside hwalk
  have htake : (body ++ [semicolon]).take i = body.take i := List.take_append_of_le_length hi
  have hdrop : (body ++ [semicolon]).drop i = body.drop i ++ [semicolon] :=
    List.drop_append_of_le_length hi
  -- no keyword comes first, so the program begins as the expression does
  obtain ⟨t, more, htokens⟩ := List.exists_cons_of_ne_nil
    (List.append_ne_nil_of_right_ne_nil body (List.cons_ne_nil semicolon []))
  have hkind : ¬ t.kind = .keyword .print_ := by
    rw [t.kind_eq_keyword_iff]
    cases body with
    | nil =>
      obtain ⟨rfl, -⟩ := List.cons.inj htokens
      simp [hsemicolon]
    | cons u body =>
      obtain ⟨rfl, -⟩ := List.cons.inj htokens
      exact hhead u rfl
  refine Program.course_decides.faults_iff.2 ?_
  rw [htake, hdrop]
  cases i with
  | zero =>
    obtain rfl : standing = .before [] := (Option.some.inj hwalk).symm
    exact ⟨.front, rfl, hinside.front htokens hkind⟩
  | succ i =>
    cases body with
    | nil => exact absurd hi (Nat.not_succ_le_zero i)
    | cons u body =>
      obtain ⟨rfl, -⟩ := List.cons.inj htokens
      rw [List.take_succ_cons] at hwalk' ⊢
      refine ⟨.inside false standing, ?_, hinside⟩
      rw [← hwalk']
      exact Spot.walk?_front hkind _

/-! ## Both readings -/

section Readings

variable {body : List Token} {semicolon marker marker' : Token}

/-- No end marker stands in front of the last token of a statement. -/
theorem isEnding_eq_false_of_semicolon (hbody : ∀ t ∈ body, t.isEnding = false)
    (hsemicolon : semicolon.meaning = .symbol .semicolon) :
    ∀ t ∈ body ++ [semicolon], t.isEnding = false := by
  intro t ht
  rcases List.mem_append.1 ht with ht | ht
  · exact hbody t ht
  · rw [List.mem_singleton.1 ht, semicolon.isEnding_eq_false (by simp [hsemicolon])]

theorem Program.failsAt_of_expr_failsAt (hbody : ∀ t ∈ body, t.isEnding = false)
    (hnone : ∀ t ∈ body, t.meaning ≠ .symbol .semicolon)
    (hhead : ∀ t ∈ body.head?, t.meaning ≠ .keyword .print_)
    (hsemicolon : semicolon.meaning = .symbol .semicolon) (hmarker : marker.isEnding = true)
    (hmarker' : marker'.isEnding = true) {i : Nat} {cause : SyntaxFault}
    (hfails : Expr.FailsAt (body ++ [marker]) i cause) :
    Program.FailsAt (body ++ [semicolon, marker']) i cause.inStatement := by
  have hbody' := isEnding_eq_false_of_semicolon hbody hsemicolon
  have huntil : untilMarker (body ++ [semicolon] ++ [marker']) = body ++ [semicolon] :=
    untilMarker_append hbody' hmarker'
  rw [List.append_assoc, List.singleton_append] at huntil
  rw [Expr.FailsAt, untilMarker_append hbody hmarker] at hfails
  obtain ⟨hi, hread⟩ := hfails
  rw [Program.FailsAt, huntil]
  refine ⟨?_, Program.readAll_of_readAll_error hnone hhead hsemicolon hi hread⟩
  rw [List.length_append]
  exact Nat.le_add_right_of_le hi

/-- With a semicolon behind the body, the token at an index of the body or just behind it is the
same, or the semicolon is in the place of the end marker. -/
theorem exists_getElem?_of_semicolon (hbody : ∀ t ∈ body, t.isEnding = false)
    (hmarker : marker.isEnding = true) {i : Nat} {t : Token} (hi : i ≤ body.length)
    (ht : (body ++ [marker])[i]? = some t) :
    (body ++ [semicolon, marker'])[i]? = some (if t.isEnding then semicolon else t) := by
  obtain ⟨more, hmore⟩ := (getElem?_append_eq_some_iff hi _ _).1 ht
  rw [getElem?_append_eq_some_iff hi]
  cases hdrop : body.drop i with
  | nil =>
    rw [hdrop] at hmore
    rw [← (List.cons.inj hmore).1, if_pos hmarker]
    exact ⟨[marker'], rfl⟩
  | cons u rest =>
    rw [hdrop] at hmore
    have hu : u.isEnding = false :=
      hbody u (List.mem_of_mem_drop (hdrop ▸ List.mem_cons_self ..))
    rw [← (List.cons.inj hmore).1, hu, if_neg Bool.false_ne_true]
    exact ⟨rest ++ [semicolon, marker'], rfl⟩

end Readings

/-- **An expression is read alike by itself and in a statement.** Up to an end marker the tokens are
an expression just when, with a semicolon behind them, they are the statement that evaluates it, and
just when, with the keyword in front, they are the statement that prints it. Where they are none,
and no semicolon is among them and the keyword does not come first, the first fault of the statement
is at the index of the expression's fault and says the same, but for the end that is missing. -/
theorem Expr.ofTokens_agrees_with_statements (body : List Token)
    (keyword semicolon marker marker' : Token) (hbody : ∀ t ∈ body, t.isEnding = false)
    (hkeyword : keyword.meaning = .keyword .print_)
    (hsemicolon : semicolon.meaning = .symbol .semicolon) (hmarker : marker.isEnding = true)
    (hmarker' : marker'.isEnding = true) :
    (∀ e : Expr,
      (Expr.ofTokens (body ++ [marker]) = .ok e ↔
        Program.ofTokens (body ++ [semicolon, marker']) = .ok [.expression e]) ∧
      (Expr.ofTokens (body ++ [marker]) = .ok e ↔
        Program.ofTokens (keyword :: body ++ [semicolon, marker']) = .ok [.print e])) ∧
    ((∀ t ∈ body, t.meaning ≠ .symbol .semicolon) →
      (∀ t ∈ body.head?, t.meaning ≠ .keyword .print_) →
      ∀ failure, Expr.ofTokens (body ++ [marker]) = .error failure →
        ∃ i cause t u ds, i ≤ body.length ∧ (body ++ [marker])[i]? = some t ∧
          (body ++ [semicolon, marker'])[i]? = some u ∧
          u = (if t.isEnding then semicolon else t) ∧
          Expr.FailsAt (body ++ [marker]) i cause ∧
          Program.FailsAt (body ++ [semicolon, marker']) i cause.inStatement ∧
          failure = .fault (cause.about t) ∧
          Program.ofTokens (body ++ [semicolon, marker']) =
            .error (.fault (cause.inStatement.about u :: ds)) ∧
          (cause.inStatement.about u).message =
            if (cause.about t).message = "Expect end of expression." then
              "Expect ';' after expression."
            else (cause.about t).message) := by
  have hbody' := isEnding_eq_false_of_semicolon hbody hsemicolon
  have hbody'' : ∀ t ∈ keyword :: body ++ [semicolon], t.isEnding = false := by
    intro t ht
    rcases List.mem_cons.1 ht with rfl | ht
    · exact t.isEnding_eq_false (by simp [hkeyword])
    · exact hbody' t ht
  have hlast : Terminated [marker] := ⟨marker, rfl, hmarker⟩
  have hlast' : Terminated [marker'] := ⟨marker', rfl, hmarker'⟩
  have hexpr := Expr.ofTokens_append hbody hmarker hlast
  have hstmt := Program.ofTokens_append hbody' hmarker' hlast'
  have hprint := Program.ofTokens_append hbody'' hmarker' hlast'
  rw [List.append_assoc, List.singleton_append] at hstmt hprint
  refine ⟨fun e => ⟨?_, ?_⟩, fun hnone hhead failure hfailure => ?_⟩
  · rw [hexpr, hstmt, Attempt.mapError_eq_ok_iff, Attempt.mapError_eq_ok_iff,
      Expr.readAll_eq_ok_iff, Program.readAll_eq_ok_iff, Program.derivesFrom_singleton_iff,
      Stmt.derivesFrom_expression_iff hsemicolon]
  · rw [hexpr, hprint, Attempt.mapError_eq_ok_iff, Attempt.mapError_eq_ok_iff,
      Expr.readAll_eq_ok_iff, Program.readAll_eq_ok_iff, Program.derivesFrom_singleton_iff,
      Stmt.derivesFrom_print_iff hkeyword hsemicolon]
  · have hearliest := Expr.earliestFault (hlast.append body)
    have hearliest' := Program.earliestFault (hlast'.append (body ++ [semicolon]))
    rw [List.append_assoc, List.singleton_append] at hearliest'
    have hkeeps : (Expr.ofTokens (body ++ [marker])).Keeps := by
      rw [hexpr]
      exact Attempt.keeps_mapError _ _
    cases failure with
    | breach b => exact absurd hfailure (hkeeps b)
    | fault d =>
      obtain ⟨i, cause, t, hfails, ht, rfl⟩ := (hearliest.reported d).1 hfailure
      have hi : i ≤ body.length := by
        have hle := hfails.1
        rwa [untilMarker_append hbody hmarker] at hle
      have hu : (body ++ [semicolon, marker'])[i]? = some (if t.isEnding then semicolon else t) :=
        exists_getElem?_of_semicolon hbody hmarker hi ht
      have hfails' : Program.FailsAt (body ++ [semicolon, marker']) i cause.inStatement :=
        Program.failsAt_of_expr_failsAt hbody hnone hhead hsemicolon hmarker hmarker' hfails
      obtain ⟨ds, hds⟩ := (hearliest'.reported _).2 ⟨i, _, _, hfails', hu, rfl⟩
      exact ⟨i, cause, t, _, ds, hi, ht, hu, rfl, hfails, hfails', rfl, hds,
        cause.inStatement_message⟩

/-- The expression `nil` is a statement with a semicolon and one that prints with the keyword. In
`( nil` the parenthesis is missing at the end of the text, and at the semicolon behind it. -/
theorem Expr.ofTokens_agrees_with_statements_unclosed :
    let keyword : Token := ⟨.keyword .print_, "print", 1⟩
    let paren : Token := ⟨.symbol .leftParen, "(", 1⟩
    let first : Token := ⟨.keyword .nil_, "nil", 1⟩
    let semicolon : Token := ⟨.symbol .semicolon, ";", 2⟩
    let marker : Token := .endMarker 2
    Program.ofTokens [first, semicolon, marker] = .ok [.expression (.literal .nil)] ∧
      Program.ofTokens [keyword, first, semicolon, marker] = .ok [.print (.literal .nil)] ∧
      Expr.ofTokens [paren, first, marker] =
        .error (.fault ⟨2, "at end", "Expect ')' after expression."⟩) ∧
      ∃ ds, Program.ofTokens [paren, first, semicolon, marker] =
        .error (.fault (⟨2, ";", "Expect ')' after expression."⟩ :: ds)) := by
  intro keyword paren first semicolon marker
  have hopen : ∀ t ∈ [paren, first], t.isEnding = false := by decide
  have hread : Expr.ofTokens [first, marker] = .ok (.literal .nil) := by
    have hderives : (Expr.literal .nil).DerivesFrom [first] :=
      ⟨.literal _, by decide, .literal rfl⟩
    have hlast : Terminated [marker] := ⟨marker, rfl, rfl⟩
    have hfirst : ∀ t ∈ [first], t.isEnding = false := by decide
    refine (Expr.ofTokens_append hfirst rfl hlast).trans ?_
    rw [(Expr.readAll_eq_ok_iff _ _).2 hderives]
    rfl
  have hsame := (Expr.ofTokens_agrees_with_statements [first] keyword semicolon marker marker
    (by decide) rfl rfl rfl rfl).1 (.literal .nil)
  have hfails : Expr.FailsAt [paren, first, marker] 2 .missingRightParen := by
    refine ⟨by decide, Expr.course_decides.faults_iff.2 ⟨.behind [.parentheses], rfl, ?_⟩⟩
    exact ⟨rfl, fun t ht => (by cases ht), fun _ hcomplete => by cases hcomplete⟩
  have hterminated : Terminated [paren, first, marker] := ⟨marker, rfl, rfl⟩
  have hfault : Expr.ofTokens [paren, first, marker] =
      .error (.fault ⟨2, "at end", "Expect ')' after expression."⟩) :=
    ((Expr.earliestFault hterminated).reported _).2 ⟨2, _, marker, hfails, rfl, rfl⟩
  obtain ⟨i, cause, t, u, ds, -, -, hu, -, hfails', -, -, hds, -⟩ :=
    (Expr.ofTokens_agrees_with_statements [paren, first] keyword semicolon marker marker
      hopen rfl rfl rfl rfl).2 (by simp [paren, first]) (by simp [paren]) _ hfault
  -- the index and the cause are the ones that were found
  obtain ⟨rfl, rfl⟩ := (Expr.earliestFault hterminated).unique _ _ _ _ hfails hfails'
  obtain rfl : semicolon = u := Option.some.inj hu
  exact ⟨hsame.1.1 hread, hsame.2.1 hread, hfault, ds, hds⟩

end Lox
