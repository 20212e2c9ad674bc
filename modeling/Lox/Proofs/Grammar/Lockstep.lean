/-
Two lists of tokens read in step.

A reading asks a token for its kind only: lexemes, lines and payloads go into what is read and into
what is said about a fault, but nothing depends on them. So where the tokens of two lists are paired
one with one, and paired tokens are of one kind, the readings of the two lists do the same at the
same places. What they come to is paired again: trees of one shape with paired operators, faults of
one cause at paired tokens, and paired tokens left to read.

How the tokens are paired is left open. All that is asked of a pairing is in `Pairing`, and each
reader is treated once, as a step that keeps what is paired (`Alike.bind`).
-/
import Mathlib.Data.List.Forall2
import Lox.Proofs.Grammar.Programs

set_option autoImplicit false

namespace Lox

/-! ## Pairs -/

/-- A way to pair tokens, each with tokens of its own kind. -/
structure Pairing where
  Pairs : Token → Token → Prop
  kind_eq : ∀ {t u : Token}, Pairs t u → t.kind = u.kind

/-- Two results are both good, and then related by `S`, or both bad, and then related by `F`. -/
inductive Alike {ε δ α β : Type} (F : ε → δ → Prop) (S : α → β → Prop) :
    Except ε α → Except δ β → Prop
  | ok {a : α} {b : β} : S a b → Alike F S (.ok a) (.ok b)
  | error {e : ε} {d : δ} : F e d → Alike F S (.error e) (.error d)

namespace Alike

variable {ε δ α β γ ζ : Type} {F : ε → δ → Prop} {S : α → β → Prop} {T : γ → ζ → Prop}

/-- Going on in a related way from related results comes to related results. -/
theorem bind {x : Except ε α} {y : Except δ β} {next : α → Except ε γ} {other : β → Except δ ζ}
    (h : Alike F S x y) (hnext : ∀ a b, x = .ok a → S a b → Alike F T (next a) (other b)) :
    Alike F T (x >>= next) (y >>= other) := by
  cases h with
  | ok hab => exact hnext _ _ rfl hab
  | error hed => exact .error hed

theorem map {x : Except ε α} {y : Except δ β} {f : α → γ} {g : β → ζ} (h : Alike F S x y)
    (hfg : ∀ a b, S a b → T (f a) (g b)) : Alike F T (x.map f) (y.map g) := by
  cases h with
  | ok hab => exact .ok (hfg _ _ hab)
  | error hed => exact .error hed

/-- Faults in other terms are related if the faults that were found make them so. -/
theorem mapError {G : γ → ζ → Prop} {S' : α → β → Prop} {x : Except ε α} {y : Except δ β}
    {f : ε → γ} {g : δ → ζ} (h : Alike F S x y)
    (herror : ∀ e d, x = .error e → y = .error d → F e d → G (f e) (g d))
    (hok : ∀ a b, x = .ok a → y = .ok b → S a b → S' a b) :
    Alike G S' (x.mapError f) (y.mapError g) := by
  cases h with
  | ok hab => exact .ok (hok _ _ rfl rfl hab)
  | error hed => exact .error (herror _ _ rfl rfl hed)

theorem ok_left {a : α} {y : Except δ β} (h : Alike F S (.ok a) y) : ∃ b, y = .ok b ∧ S a b := by
  cases h with
  | ok hab => exact ⟨_, rfl, hab⟩

theorem error_left {e : ε} {y : Except δ β} (h : Alike F S (.error e) y) :
    ∃ d, y = .error d ∧ F e d := by
  cases h with
  | error hed => exact ⟨_, rfl, hed⟩

end Alike

/-! ## What depends on the kind -/

namespace Token

variable {t u : Token}

theorem level?_eq_some_congr (hkind : t.kind = u.kind) (level : Level) :
    t.level? = some level ↔ u.level? = some level := by
  rw [level?_eq_some_iff, level?_eq_some_iff, Joins, Joins]
  simp only [← kind_eq_symbol_iff, hkind]

theorem isUnary_congr (hkind : t.kind = u.kind) : t.isUnary = u.isUnary := by
  rw [Bool.eq_iff_iff, isUnary_iff, isUnary_iff, Negates, Negates]
  simp only [← kind_eq_symbol_iff, hkind]

theorem beginsStatement_congr (hkind : t.kind = u.kind) :
    t.beginsStatement = u.beginsStatement := by
  rw [Bool.eq_iff_iff, beginsStatement_iff, beginsStatement_iff]
  simp only [← kind_eq_keyword_iff, hkind]

theorem isSome_literal?_iff (t : Token) :
    t.literal?.isSome = true ↔ t.kind = .number ∨ t.kind = .string ∨
      t.kind = .keyword .true_ ∨ t.kind = .keyword .false_ ∨ t.kind = .keyword .nil_ := by
  rw [literal?, kind]
  cases t.meaning with
  | keyword k => cases k <;> simp [Meaning.kind]
  | _ => simp [Meaning.kind]

/-- Which value a literal has is not decided by the kind, but whether it has one is. -/
theorem literal?_congr (hkind : t.kind = u.kind) :
    (t.literal? = none ∧ u.literal? = none) ∨
      ∃ value other, t.literal? = some value ∧ u.literal? = some other := by
  have hsome : t.literal?.isSome = true ↔ u.literal?.isSome = true := by
    rw [isSome_literal?_iff, isSome_literal?_iff, hkind]
  cases ht : t.literal? <;> cases hu : u.literal? <;> simp [ht, hu] at hsome ⊢

end Token

/-! ## What is read -/

variable (P : Pairing)

/-- Trees of one shape. Their operators are paired, and so are the tokens of their literals. -/
inductive Expr.Parallel : Expr → Expr → Prop
  | literal {t u : Token} {value other : Value} : P.Pairs t u → t.literal? = some value →
      u.literal? = some other → Parallel (.literal value) (.literal other)
  | group {inner other : Expr} : Parallel inner other → Parallel (.group inner) (.group other)
  | unary {t u : Token} {operand other : Expr} : P.Pairs t u → Parallel operand other →
      Parallel (.unary t operand) (.unary u other)
  | binary {t u : Token} {left left' right right' : Expr} : Parallel left left' → P.Pairs t u →
      Parallel right right' → Parallel (.binary left t right) (.binary left' u right')

/-- Statements of one sort with such trees. -/
inductive Stmt.Parallel : Stmt → Stmt → Prop
  | expression {e other : Expr} : e.Parallel P other → Parallel (.expression e) (.expression other)
  | print {e other : Expr} : e.Parallel P other → Parallel (.print e) (.print other)

/-- Faults of one cause, with paired tokens from the offending ones on. -/
structure Misfit.Parallel (m other : Misfit) : Prop where
  cause : m.cause = other.cause
  rest : List.Forall₂ P.Pairs m.rest other.rest

/-- Something related was read, and paired tokens are left. -/
def ReadAlike {α β : Type} (S : α → β → Prop) (found : α × List Token) (other : β × List Token) :
    Prop :=
  S found.1 other.1 ∧ List.Forall₂ P.Pairs found.2 other.2

/-- The reader reads paired tokens in step. -/
structure Reader.InStep (reader : Reader) : Prop where
  alike : ∀ {tokens others : List Token}, List.Forall₂ P.Pairs tokens others →
    Alike (Misfit.Parallel P) (ReadAlike P (Expr.Parallel P)) (reader.read tokens)
      (reader.read others)

variable {P}

theorem expect_alike (kind : Kind) (cause : SyntaxFault) {tokens others : List Token}
    (h : List.Forall₂ P.Pairs tokens others) :
    Alike (Misfit.Parallel P) (List.Forall₂ P.Pairs) (expect kind cause tokens)
      (expect kind cause others) := by
  cases h with
  | nil => exact .error ⟨rfl, .nil⟩
  | @cons t u rest more htu hrest =>
    rw [expect, expect, P.kind_eq htu]
    by_cases hkind : u.kind = kind
    · rw [if_pos hkind, if_pos hkind]
      exact .ok hrest
    · rw [if_neg hkind, if_neg hkind]
      exact .error ⟨rfl, .cons htu hrest⟩

/-! ## Readers of expressions -/

namespace Reader

/-! ### One thing after the other -/

theorem join_cons (level : Level) (operand : Reader) (left : Expr) (t : Token)
    (more : List Token) :
    join level operand left (t :: more) =
      if t.level? = some level then
        operand.read more >>= fun found => join level operand (.binary left t found.1) found.2
      else .ok (left, t :: more) := by
  rw [join]
  by_cases hlevel : t.level? = some level
  · rw [if_pos hlevel, if_pos hlevel]
    split
    · rename_i m hm
      rw [hm]
      rfl
    · rename_i right rest hread
      rw [hread]
      rfl
  · rw [if_neg hlevel, if_neg hlevel]

theorem chain_read (level : Level) (operand : Reader) (tokens : List Token) :
    (operand.chain level).read tokens =
      operand.read tokens >>= fun found => join level operand found.1 found.2 := by
  simp only [chain]
  cases operand.read tokens <;> rfl

theorem readGroup_eq_bind (inner : Reader) (tokens : List Token) :
    inner.readGroup tokens =
      inner.read tokens >>= fun found =>
        expect (.symbol .rightParen) .missingRightParen found.2 >>= fun rest =>
          .ok (.group found.1, rest) := by
  rw [readGroup]
  cases inner.read tokens with
  | error m => rfl
  | ok found =>
    simp only
    cases hexpect : expect (.symbol .rightParen) .missingRightParen found.2 <;>
      simp only [hexpect, bind, Except.bind]

theorem readOperand_of_isUnary {t : Token} (hunary : t.isUnary = true) (nested : Reader)
    (more : List Token) :
    nested.readOperand (t :: more) =
      nested.read more >>= fun found => .ok (.unary t found.1, found.2) := by
  rw [readOperand, if_pos hunary]
  cases nested.read more <;> rfl

/-! ### In step -/

/-- A tree and a closing token behind it are read in step, and what they make is related. -/
theorem InStep.closed {β : Type} {S : β → β → Prop} {reader : Reader} (h : reader.InStep P)
    {make : Expr → β} (hmake : ∀ e other : Expr, e.Parallel P other → S (make e) (make other))
    (closing : Kind) (missing : SyntaxFault) {tokens others : List Token}
    (htokens : List.Forall₂ P.Pairs tokens others) :
    Alike (Misfit.Parallel P) (ReadAlike P S)
      (reader.read tokens >>= fun found =>
        expect closing missing found.2 >>= fun rest => .ok (make found.1, rest))
      (reader.read others >>= fun found =>
        expect closing missing found.2 >>= fun rest => .ok (make found.1, rest)) := by
  refine (h.alike htokens).bind fun found found' _ hfound => ?_
  refine (expect_alike closing missing hfound.2).bind fun rest more _ hrest => ?_
  exact .ok ⟨hmake _ _ hfound.1, hrest⟩

variable {level : Level} {operand nested inner : Reader}

/-- The induction is on how many tokens are left, since each operand uses up as many as it likes. -/
theorem join_alike (h : operand.InStep P) (left other : Expr) (tokens others : List Token)
    (hleft : left.Parallel P other) (htokens : List.Forall₂ P.Pairs tokens others) :
    Alike (Misfit.Parallel P) (ReadAlike P (Expr.Parallel P)) (join level operand left tokens)
      (join level operand other others) := by
  induction hlength : tokens.length using Nat.strongRecOn
    generalizing left other tokens others with
  | ind n ih =>
    cases htokens with
    | nil =>
      rw [join, join]
      exact .ok ⟨hleft, .nil⟩
    | @cons t u more more' htu hmore =>
      rw [join_cons, join_cons]
      have hlevel := Token.level?_eq_some_congr (P.kind_eq htu) level
      by_cases hjoins : t.level? = some level
      · rw [if_pos hjoins, if_pos (hlevel.1 hjoins)]
        refine (h.alike hmore).bind fun found found' hread hfound => ?_
        have hshorter := operand.uses_lt hread
        rw [List.length_cons] at hlength
        exact ih found.2.length (by omega) _ _ _ _ (.binary hleft htu hfound.1) hfound.2 rfl
      · rw [if_neg hjoins, if_neg (mt hlevel.2 hjoins)]
        exact .ok ⟨hleft, .cons htu hmore⟩

theorem chain_inStep (h : operand.InStep P) (level : Level) :
    (operand.chain level).InStep P where
  alike {tokens others} htokens := by
    rw [chain_read, chain_read]
    refine (h.alike htokens).bind fun found found' _ hfound => ?_
    exact join_alike h _ _ _ _ hfound.1 hfound.2

theorem allLevels_inStep (h : operand.InStep P) : operand.allLevels.InStep P := by
  have hfactor := chain_inStep h .factor
  have hterm := chain_inStep hfactor .term
  have hcomparison := chain_inStep hterm .comparison
  exact chain_inStep hcomparison .equality

theorem readGroup_alike (h : inner.InStep P) {tokens others : List Token}
    (htokens : List.Forall₂ P.Pairs tokens others) :
    Alike (Misfit.Parallel P) (ReadAlike P (Expr.Parallel P)) (inner.readGroup tokens)
      (inner.readGroup others) := by
  rw [readGroup_eq_bind, readGroup_eq_bind]
  exact h.closed (fun _ _ => .group) _ _ htokens

theorem operand_inStep (h : nested.InStep P) : nested.operand.InStep P where
  alike {tokens others} htokens := by
    simp only [Reader.operand]
    cases htokens with
    | nil => exact .error ⟨rfl, .nil⟩
    | @cons t u more more' htu hmore =>
      have hkind := P.kind_eq htu
      by_cases hunary : t.isUnary = true
      · have hunary' : u.isUnary = true := by rwa [← Token.isUnary_congr hkind]
        rw [readOperand_of_isUnary hunary, readOperand_of_isUnary hunary']
        refine (h.alike hmore).bind fun found found' _ hfound => ?_
        exact .ok ⟨.unary htu hfound.1, hfound.2⟩
      have hunary' : ¬ u.isUnary = true := by rwa [← Token.isUnary_congr hkind]
      rw [readOperand, readOperand, if_neg hunary, if_neg hunary', ← hkind]
      by_cases hparen : t.kind = .symbol .leftParen
      · rw [if_pos hparen, if_pos hparen]
        exact readGroup_alike (allLevels_inStep h) hmore
      rw [if_neg hparen, if_neg hparen]
      rcases Token.literal?_congr hkind with ⟨ht, hu⟩ | ⟨value, other, ht, hu⟩
      · rw [ht, hu]
        exact .error ⟨rfl, .cons htu hmore⟩
      · rw [ht, hu]
        exact .ok ⟨.literal htu ht hu, hmore⟩

theorem exhausted_inStep : exhausted.InStep P where
  alike htokens := .error ⟨rfl, htokens⟩

theorem operands_inStep (depth : Nat) : (operands depth).InStep P := by
  induction depth with
  | zero => exact exhausted_inStep
  | succ depth ih => exact operand_inStep ih

end Reader

theorem Expr.reader_inStep : Expr.reader.InStep P :=
  Reader.allLevels_inStep (Reader.operands_inStep maxNesting)

/-! ## Statements and recovery -/

namespace Stmt

theorem readBody_eq_bind (make : Expr → Stmt) (missing : SyntaxFault) (tokens : List Token) :
    readBody make missing tokens =
      Expr.reader.read tokens >>= fun found =>
        expect (.symbol .semicolon) missing found.2 >>= fun rest => .ok (make found.1, rest) := by
  rw [readBody]
  cases Expr.reader.read tokens with
  | error m => rfl
  | ok found =>
    simp only
    cases hexpect : expect (.symbol .semicolon) missing found.2 <;>
      simp only [hexpect, bind, Except.bind]

theorem readBody_alike {make : Expr → Stmt} (hmake : ∀ e other : Expr, e.Parallel P other →
      (make e).Parallel P (make other)) (missing : SyntaxFault) {tokens others : List Token}
    (h : List.Forall₂ P.Pairs tokens others) :
    Alike (Misfit.Parallel P) (ReadAlike P (Stmt.Parallel P)) (readBody make missing tokens)
      (readBody make missing others) := by
  rw [readBody_eq_bind, readBody_eq_bind]
  exact Expr.reader_inStep.closed hmake _ _ h

theorem read_alike {tokens others : List Token} (h : List.Forall₂ P.Pairs tokens others) :
    Alike (Misfit.Parallel P) (ReadAlike P (Stmt.Parallel P)) (read tokens) (read others) := by
  cases h with
  | nil => exact readBody_alike (fun _ _ => .expression) .expectedSemicolonAfterExpression .nil
  | @cons t u rest more htu hrest =>
    rw [read, read, P.kind_eq htu]
    by_cases hprint : u.kind = .keyword .print_
    · rw [if_pos hprint, if_pos hprint]
      exact readBody_alike (fun _ _ => .print) _ hrest
    · rw [if_neg hprint, if_neg hprint]
      exact readBody_alike (fun _ _ => .expression) _ (.cons htu hrest)

end Stmt

theorem resume_parallel {tokens others : List Token} (h : List.Forall₂ P.Pairs tokens others) :
    ∀ {last last' : Token}, P.Pairs last last' →
      List.Forall₂ P.Pairs (resume last tokens) (resume last' others) := by
  induction h with
  | nil =>
    intro last last' _
    exact .nil
  | @cons t u rest more htu hrest ih =>
    intro last last' hlast
    rw [resume, resume, P.kind_eq hlast, Token.beginsStatement_congr (P.kind_eq htu)]
    by_cases hstop : (decide (last'.kind = .symbol .semicolon) || u.beginsStatement) = true
    · rw [if_pos hstop, if_pos hstop]
      exact .cons htu hrest
    · rw [if_neg hstop, if_neg hstop]
      exact ih htu

theorem recover_parallel {tokens others : List Token} (h : List.Forall₂ P.Pairs tokens others) :
    List.Forall₂ P.Pairs (recover tokens) (recover others) := by
  cases h with
  | nil => exact .nil
  | cons htu hrest => exact resume_parallel hrest htu

/-! ## Programs -/

namespace Program

theorem misfits_parallel {x y : Except (List Misfit) Program}
    (h : Alike (List.Forall₂ (Misfit.Parallel P)) (List.Forall₂ (Stmt.Parallel P)) x y) :
    List.Forall₂ (Misfit.Parallel P) (misfits x) (misfits y) := by
  cases h with
  | ok _ => exact .nil
  | error hmisfits => exact hmisfits

/-- **Paired tokens are read in step.** Both lists are read as programs, and these are paired
statement by statement, or neither is, and then the faults are paired one by one. -/
theorem readAll_alike {tokens others : List Token} (h : List.Forall₂ P.Pairs tokens others) :
    Alike (List.Forall₂ (Misfit.Parallel P)) (List.Forall₂ (Stmt.Parallel P)) (readAll tokens)
      (readAll others) := by
  induction tokens using passes_induction generalizing others with
  | nil =>
    rw [List.forall₂_nil_left_iff.1 h, readAll_nil]
    exact .ok .nil
  | statement tokens s rest hread ih =>
    have halike := Stmt.read_alike h
    rw [hread] at halike
    obtain ⟨⟨s', rest'⟩, hread', hs, hrest⟩ := halike.ok_left
    rw [readAll_of_read_ok hread, readAll_of_read_ok hread']
    exact (ih hrest).map fun p q hpq => .cons hs hpq
  | fault tokens m hne hread ih =>
    have halike := Stmt.read_alike h
    rw [hread] at halike
    obtain ⟨m', hread', hm⟩ := halike.error_left
    have hne' : others ≠ [] := by
      rintro rfl
      exact hne (List.forall₂_nil_right_iff.1 h)
    rw [readAll_of_read_error hne hread, readAll_of_read_error hne' hread']
    exact .error (.cons hm (misfits_parallel (ih (recover_parallel hm.rest))))

end Program

end Lox
