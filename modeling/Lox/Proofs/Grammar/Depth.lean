/-
Nesting beyond the bound.

What it means for tokens to write a tree has nothing to do with the bound on its nesting, and the
same goes for statements and programs: each statement has its semicolon behind it, however deep its
expression is. Such tokens determine the program, since a reader for a greater depth, which is exact
too, would read all of it. So a program that is nested too deeply cannot be taken for another one:
its tokens are refused with diagnostics, and no tree that is returned was nested too deeply.
-/
import Lox.Proofs.Contracts

set_option autoImplicit false

namespace Lox

/-! ## Statements and programs at any depth -/

/-- The tokens are those of the statement, however deep its expression is nested. -/
inductive Stmt.WrittenBy : Stmt → List Token → Prop
  | expression {e : Expr} {body : List Token} {last : Token} : e.Canonical → e.WrittenBy body →
      last.meaning = .symbol .semicolon → WrittenBy (.expression e) (body ++ [last])
  | print {e : Expr} {first last : Token} {body : List Token} :
      first.meaning = .keyword .print_ → e.Canonical → e.WrittenBy body →
      last.meaning = .symbol .semicolon → WrittenBy (.print e) (first :: body ++ [last])

/-- The tokens are those of the statements of the program in order. -/
inductive Program.WrittenBy : Program → List Token → Prop
  | nil : WrittenBy [] []
  | cons {s : Stmt} {program : Program} {front back : List Token} : s.WrittenBy front →
      WrittenBy program back → WrittenBy (s :: program) (front ++ back)

/-- What a statement derives from is what it is written by, within the bound. -/
theorem Stmt.DerivesFrom.written {s : Stmt} {tokens : List Token} (h : s.DerivesFrom tokens) :
    s.WrittenBy tokens ∧ s.expr.nesting < maxNesting := by
  cases h with
  | expression he hlast => exact ⟨.expression he.canonical he.written hlast, he.shallow⟩
  | print hfirst he hlast => exact ⟨.print hfirst he.canonical he.written hlast, he.shallow⟩

theorem Program.DerivesFrom.written {program : Program} {tokens : List Token}
    (h : Program.DerivesFrom program tokens) :
    Program.WrittenBy program tokens ∧ ∀ s ∈ program, s.expr.nesting < maxNesting := by
  induction h with
  | nil => exact ⟨.nil, by simp⟩
  | cons hs _ ih =>
    obtain ⟨hwritten, hshallow⟩ := hs.written
    refine ⟨.cons hwritten ih.1, ?_⟩
    intro t ht
    rcases List.mem_cons.1 ht with rfl | ht
    · exact hshallow
    · exact ih.2 t ht

/-! ## The tokens determine the program -/

section Unique

variable {body body' back back' : List Token} {last last' : Token}

/-- Where two trees are both followed by a semicolon, they are one tree with the same tokens
behind it. The reader for the greater depth of the two reads both. -/
theorem Expr.WrittenBy.unique_closed {e other : Expr} (he : e.Canonical)
    (hother : other.Canonical) (hwritten : e.WrittenBy body) (hwritten' : other.WrittenBy body')
    (hlast : last.meaning = .symbol .semicolon) (hlast' : last'.meaning = .symbol .semicolon)
    (hsame : body ++ last :: back = body' ++ last' :: back') : e = other ∧ back = back' := by
  have hexact := Reader.expressions_exact (max e.nesting other.nesting + 1)
  have hclosed := hexact.closed_iff Stmt.semicolon_not_mem .expectedSemicolonAfterExpression
  have hfits : e.Fits (max e.nesting other.nesting + 1) 0 :=
    ⟨he, he.bindsAt_zero, by omega⟩
  have hfits' : other.Fits (max e.nesting other.nesting + 1) 0 :=
    ⟨hother, hother.bindsAt_zero, by omega⟩
  obtain ⟨middle, hread, hexpect⟩ :=
    (hclosed e _ back).2 ⟨body, last, rfl, hfits, hwritten, hlast⟩
  obtain ⟨middle', hread', hexpect'⟩ :=
    (hclosed other _ back').2 ⟨body', last', rfl, hfits', hwritten', hlast'⟩
  rw [hsame, hread'] at hread
  obtain ⟨rfl, rfl⟩ : other = e ∧ middle' = middle := by simpa using hread
  rw [hexpect'] at hexpect
  exact ⟨rfl, (Except.ok.inj hexpect).symm⟩

theorem Stmt.WrittenBy.unique {s other : Stmt} {front front' : List Token}
    (hs : s.WrittenBy front) (hother : other.WrittenBy front')
    (hsame : front ++ back = front' ++ back') : s = other ∧ back = back' := by
  cases hs with
  | @expression e body last he hwritten hlast =>
    cases hother with
    | @expression e' body' last' he' hwritten' hlast' =>
      rw [List.append_assoc, List.append_assoc] at hsame
      obtain ⟨rfl, rfl⟩ := hwritten.unique_closed he he' hwritten' hlast hlast' hsame
      exact ⟨rfl, rfl⟩
    | @print e' first' last' body' hfirst' he' hwritten' hlast' =>
      obtain ⟨t, more, rfl, -⟩ := hwritten.head he
      obtain ⟨rfl, -⟩ : t = first' ∧ _ := by simpa using hsame
      exact absurd hwritten (Stmt.not_writtenBy_print hfirst' he)
  | @print e first last body hfirst he hwritten hlast =>
    cases hother with
    | @expression e' body' last' he' hwritten' hlast' =>
      obtain ⟨t, more, rfl, -⟩ := hwritten'.head he'
      obtain ⟨rfl, -⟩ : first = t ∧ _ := by simpa using hsame
      exact absurd hwritten' (Stmt.not_writtenBy_print hfirst he')
    | @print e' first' last' body' hfirst' he' hwritten' hlast' =>
      obtain ⟨-, hbehind⟩ : first = first' ∧ body ++ last :: back = body' ++ last' :: back' := by
        simpa using hsame
      obtain ⟨rfl, rfl⟩ := hwritten.unique_closed he he' hwritten' hlast hlast' hbehind
      exact ⟨rfl, rfl⟩

/-- A statement is never written by no tokens. -/
theorem Stmt.WrittenBy.ne_nil {s : Stmt} {tokens : List Token} (h : s.WrittenBy tokens) :
    tokens ≠ [] := by
  cases h <;> simp

/-- The tokens of a program determine it, however deep its expressions are nested. -/
theorem Program.WrittenBy.unique {program other : Program} {tokens : List Token}
    (h : Program.WrittenBy program tokens) (hother : Program.WrittenBy other tokens) :
    program = other := by
  induction h generalizing other with
  | nil =>
    generalize hnil : ([] : List Token) = tokens at hother
    cases hother with
    | nil => rfl
    | cons hs _ => exact absurd (List.append_eq_nil_iff.1 hnil.symm).1 hs.ne_nil
  | @cons s program front back hs _ ih =>
    generalize htokens : front ++ back = tokens at hother
    cases hother with
    | nil => exact absurd (List.append_eq_nil_iff.1 htokens).1 hs.ne_nil
    | cons hs' hother' =>
      obtain ⟨rfl, rfl⟩ := hs.unique hs' htokens
      rw [ih hother']

end Unique

/-! ## What is returned, and what is refused -/

section Accepted

variable {tokens : List Token}

/-- A tree that is returned derives from the tokens in front of the marker. -/
theorem Expr.derivesFrom_of_ofTokens {e : Expr} (h : Expr.ofTokens tokens = .ok e) :
    e.DerivesFrom (untilMarker tokens) := by
  obtain ⟨sequence, hsequence, -⟩ := Attempt.bind_eq_ok h
  obtain ⟨body, marker, tail, rfl, hbody, hmarker, htail⟩ :=
    (Terminated.of_sequence hsequence).split
  rw [Expr.ofTokens_append hbody hmarker htail] at h
  rw [untilMarker_append hbody hmarker]
  exact (Expr.readAll_eq_ok_iff body e).1 (Attempt.mapError_eq_ok_iff.1 h)

theorem Program.derivesFrom_of_ofTokens {program : Program}
    (h : Program.ofTokens tokens = .ok program) :
    Program.DerivesFrom program (untilMarker tokens) := by
  obtain ⟨sequence, hsequence, -⟩ := Attempt.bind_eq_ok h
  obtain ⟨body, marker, tail, rfl, hbody, hmarker, htail⟩ :=
    (Terminated.of_sequence hsequence).split
  rw [Program.ofTokens_append hbody hmarker htail] at h
  rw [untilMarker_append hbody hmarker]
  exact (Program.readAll_eq_ok_iff body program).1 (Attempt.mapError_eq_ok_iff.1 h)

/-- The tokens of an expression that is nested too deeply are refused with a diagnostic. -/
theorem Expr.WrittenBy.refused {e : Expr} (hwritten : e.WrittenBy (untilMarker tokens))
    (hcanonical : e.Canonical) (hterminated : Terminated tokens)
    (hdeep : maxNesting ≤ e.nesting) : ∃ d, Expr.ofTokens tokens = .error (.fault d) := by
  rcases (Expr.ofTokens_keeps hterminated).1.result_or_fault with ⟨other, hother⟩ | hfault
  · have hderives := Expr.derivesFrom_of_ofTokens hother
    obtain rfl := hwritten.unique hcanonical hderives.canonical hderives.written
    have hshallow := hderives.shallow
    omega
  · exact hfault

/-- So are the tokens of a program with such an expression in one of its statements. -/
theorem Program.WrittenBy.refused {program : Program}
    (hwritten : Program.WrittenBy program (untilMarker tokens)) (hterminated : Terminated tokens)
    {s : Stmt} (hs : s ∈ program) (hdeep : maxNesting ≤ s.expr.nesting) :
    ∃ ds, Program.ofTokens tokens = .error (.fault ds) := by
  rcases (Program.ofTokens_keeps hterminated).1.result_or_fault with ⟨other, hother⟩ | hfault
  · obtain ⟨hother', hshallow⟩ := (Program.derivesFrom_of_ofTokens hother).written
    obtain rfl := hwritten.unique hother'
    have := hshallow s hs
    omega
  · exact hfault

end Accepted

end Lox
