/-
The lines of runtime faults.

A fault of an evaluation is that of one operation: the first one that fails when operands are evaluated
before their operator, the left ones first. `Expr.FaultsAt` says which one it is, by the place of its
operator among the tokens that the tree is written with. As a tree keeps its operators as tokens, the
fault has the line of the very token at that place, wherever an equal operator may stand elsewhere; and
the token's line is counted in the source (`OccursAt.token`).

The argument has three parts that know nothing of each other: which token the fault is from, where the
tokens of a tree are among those of a source, and where the tokens of a source stand in its text.
-/
import Lox.Proofs.Evaluation.Postorder
import Lox.Proofs.Grammar.Depth
import Lox.Proofs.Lexing.Occurrences

set_option autoImplicit false

namespace Lox

/-! ## The operation that fails -/

/-- The evaluation of the tree that these tokens write fails with this fault, in the operation whose
operator is the token with this index. -/
inductive Expr.FaultsAt : Expr → List Token → Nat → RuntimeFault → Prop
  | group {inner : Expr} {first last : Token} {body : List Token} {index : Nat} {f : RuntimeFault} :
      first.meaning = .symbol .leftParen → FaultsAt inner body index f →
      last.meaning = .symbol .rightParen →
      FaultsAt (group inner) (first :: body ++ [last]) (index + 1) f
  | operand {operator : Token} {operand : Expr} {body : List Token} {index : Nat}
      {f : RuntimeFault} : FaultsAt operand body index f →
      FaultsAt (unary operator operand) (operator :: body) (index + 1) f
  | unary {operator : Token} {operand : Expr} {body : List Token} {value : Value}
      {f : RuntimeFault} : operand.WrittenBy body → operand.eval = .ok value →
      operator.applyUnary value = .error (.fault f) →
      FaultsAt (unary operator operand) (operator :: body) 0 f
  | left {left right : Expr} {operator : Token} {front back : List Token} {index : Nat}
      {f : RuntimeFault} : FaultsAt left front index f → right.WrittenBy back →
      FaultsAt (binary left operator right) (front ++ operator :: back) index f
  -- the right operand is evaluated only if the left one has a value
  | right {left right : Expr} {operator : Token} {front back : List Token} {value : Value}
      {index : Nat} {f : RuntimeFault} : left.WrittenBy front → left.eval = .ok value →
      FaultsAt right back index f →
      FaultsAt (binary left operator right) (front ++ operator :: back)
        (front.length + (index + 1)) f
  | binary {left right : Expr} {operator : Token} {front back : List Token} {l r : Value}
      {f : RuntimeFault} : left.WrittenBy front → right.WrittenBy back → left.eval = .ok l →
      right.eval = .ok r → operator.applyBinary l r = .error (.fault f) →
      FaultsAt (binary left operator right) (front ++ operator :: back) front.length f

namespace Expr

variable {e : Expr} {tokens : List Token} {index : Nat} {f : RuntimeFault}

/-- The operation found this way is where the evaluation ends. -/
theorem FaultsAt.eval_eq (h : e.FaultsAt tokens index f) : e.eval = .error (.fault f) := by
  induction h with
  | group _ _ _ ih => rw [eval, ih]
  | operand _ ih => rw [eval, ih]; rfl
  | unary _ hvalue hfails => rw [eval, hvalue]; exact hfails
  | left _ _ ih => rw [eval, ih]; rfl
  | right _ hvalue _ ih => rw [eval, hvalue]; simp only [bind, Except.bind, ih]
  | binary _ _ hl hr hfails => rw [eval, hl, hr]; exact hfails

/-- An evaluation that fails does so in one of its operations. -/
theorem WrittenBy.exists_faultsAt (h : e.WrittenBy tokens) (hfails : e.eval = .error (.fault f)) :
    ∃ index, e.FaultsAt tokens index f := by
  induction h with
  | literal _ => cases hfails
  | group hfirst _ hlast ih =>
    obtain ⟨index, hindex⟩ := ih hfails
    exact ⟨index + 1, .group hfirst hindex hlast⟩
  | @unary operator operand body hbody ih =>
    rw [eval] at hfails
    cases hoperand : operand.eval with
    | error failure =>
      rw [hoperand] at hfails
      obtain rfl : failure = .fault f := Except.error.inj hfails
      obtain ⟨index, hindex⟩ := ih hoperand
      exact ⟨index + 1, .operand hindex⟩
    | ok value =>
      rw [hoperand] at hfails
      exact ⟨0, .unary hbody hoperand hfails⟩
  | @binary left right operator front back hfront hback ihleft ihright =>
    rw [eval] at hfails
    cases hleft : left.eval with
    | error failure =>
      rw [hleft] at hfails
      obtain rfl : failure = .fault f := Except.error.inj hfails
      obtain ⟨index, hindex⟩ := ihleft hleft
      exact ⟨index, .left hindex hback⟩
    | ok l =>
      cases hright : right.eval with
      | error failure =>
        rw [hleft, hright] at hfails
        obtain rfl : failure = .fault f := Except.error.inj hfails
        obtain ⟨index, hindex⟩ := ihright hright
        exact ⟨_, .right hfront hleft hindex⟩
      | ok r =>
        rw [hleft, hright] at hfails
        exact ⟨_, .binary hfront hback hleft hright hfails⟩

theorem WrittenBy.eval_eq_fault_iff (h : e.WrittenBy tokens) :
    e.eval = .error (.fault f) ↔ ∃ index, e.FaultsAt tokens index f :=
  ⟨h.exists_faultsAt, fun ⟨_, hfaults⟩ => hfaults.eval_eq⟩

end Expr

/-- An operator that is applied to operands of wrong types is reported as it is, and is no string. -/
theorem Node.Fails.reports {node : Node} {operator : Token} {operands : List Value}
    {f : RuntimeFault} (hfails : node.Fails operands (.fault f))
    (hnode : node = .unary operator ∨ node = .binary operator) :
    f.line = operator.line ∧ f.operator = operator.lexeme ∧ operator.kind ≠ .string := by
  cases hfails with
  | notNumber hmeaning _ =>
    obtain rfl := Node.unary.inj (hnode.resolve_right Node.noConfusion)
    exact ⟨rfl, rfl, by rw [Token.kind, hmeaning]; exact Kind.noConfusion⟩
  | notNumbers hmeaning _ _ =>
    obtain rfl := Node.binary.inj (hnode.resolve_left Node.noConfusion)
    exact ⟨rfl, rfl, by rw [Token.kind, hmeaning]; exact Kind.noConfusion⟩
  | notNumbersOrStrings hmeaning _ _ =>
    obtain rfl := Node.binary.inj (hnode.resolve_left Node.noConfusion)
    exact ⟨rfl, rfl, by rw [Token.kind, hmeaning]; exact Kind.noConfusion⟩

/-- What is found in a list is found there with more behind it. -/
theorem getElem?_in_front {α : Type} {front : List α} {index : Nat} {x : α}
    (h : front[index]? = some x) (back : List α) : (front ++ back)[index]? = some x := by
  rw [List.getElem?_append_left (List.getElem?_eq_some_iff.1 h).1]
  exact h

/-- It is found behind another list as many places later. -/
theorem getElem?_behind {α : Type} {back : List α} {index : Nat} {x : α}
    (h : back[index]? = some x) (front : List α) :
    (front ++ back)[front.length + index]? = some x := by
  rw [List.getElem?_append_right (Nat.le_add_right _ _), Nat.add_sub_cancel_left]
  exact h

/-- What a fault reports is the token at its place. -/
theorem Expr.FaultsAt.reports {e : Expr} {tokens : List Token} {index : Nat} {f : RuntimeFault}
    (h : e.FaultsAt tokens index f) :
    ∃ t, tokens[index]? = some t ∧ f.line = t.line ∧ f.operator = t.lexeme ∧ t.kind ≠ .string := by
  induction h with
  | @group inner first last body index f _ _ _ ih =>
    obtain ⟨t, ht, hreports⟩ := ih
    refine ⟨t, ?_, hreports⟩
    rw [List.cons_append, List.getElem?_cons_succ]
    exact getElem?_in_front ht _
  | operand _ ih =>
    obtain ⟨t, ht, hreports⟩ := ih
    exact ⟨t, ht, hreports⟩
  | unary _ _ hfails =>
    exact ⟨_, rfl, (Token.applyUnary_eq_error_iff _).1 hfails |>.reports (.inl rfl)⟩
  | left _ _ ih =>
    obtain ⟨t, ht, hreports⟩ := ih
    exact ⟨t, getElem?_in_front ht _, hreports⟩
  | right _ _ _ ih =>
    obtain ⟨t, ht, hreports⟩ := ih
    refine ⟨t, getElem?_behind ?_ _, hreports⟩
    rw [List.getElem?_cons_succ]
    exact ht
  | binary _ _ _ _ hfails =>
    exact ⟨_, getElem?_length_append,
      (Token.applyBinary_eq_error_iff _ _).1 hfails |>.reports (.inr rfl)⟩

/-! ## Statements -/

/-- The evaluation of the statement's expression fails, in the operation whose operator is the token
with this index among the statement's own. -/
inductive Stmt.FaultsAt : Stmt → List Token → Nat → RuntimeFault → Prop
  | expression {e : Expr} {body : List Token} {last : Token} {index : Nat} {f : RuntimeFault} :
      e.FaultsAt body index f → last.meaning = .symbol .semicolon →
      FaultsAt (.expression e) (body ++ [last]) index f
  | print {e : Expr} {first last : Token} {body : List Token} {index : Nat} {f : RuntimeFault} :
      first.meaning = .keyword .print_ → e.FaultsAt body index f →
      last.meaning = .symbol .semicolon → FaultsAt (.print e) (first :: body ++ [last]) (index + 1) f

namespace Stmt

variable {s : Stmt} {tokens : List Token} {index : Nat} {f : RuntimeFault}

theorem DerivesFrom.eval_eq_fault_iff (h : s.DerivesFrom tokens) :
    s.expr.eval = .error (.fault f) ↔ ∃ index, s.FaultsAt tokens index f := by
  constructor
  · intro hfails
    cases h with
    | expression he hlast =>
      obtain ⟨index, hindex⟩ := he.written.exists_faultsAt hfails
      exact ⟨index, .expression hindex hlast⟩
    | print hfirst he hlast =>
      obtain ⟨index, hindex⟩ := he.written.exists_faultsAt hfails
      exact ⟨index + 1, .print hfirst hindex hlast⟩
  · rintro ⟨index, hfaults⟩
    cases hfaults with
    | expression he _ => exact he.eval_eq
    | print _ he _ => exact he.eval_eq

theorem FaultsAt.reports (h : s.FaultsAt tokens index f) :
    ∃ t, tokens[index]? = some t ∧ f.line = t.line ∧ f.operator = t.lexeme ∧ t.kind ≠ .string := by
  cases h with
  | expression he _ =>
    obtain ⟨t, ht, hreports⟩ := he.reports
    exact ⟨t, getElem?_in_front ht _, hreports⟩
  | print _ he _ =>
    obtain ⟨t, ht, hreports⟩ := he.reports
    refine ⟨t, ?_, hreports⟩
    rw [List.cons_append, List.getElem?_cons_succ]
    exact getElem?_in_front ht _

end Stmt

/-- The tokens of a program are those of a statement with the tokens of the statements around it. -/
theorem Program.DerivesFrom.around {earlier : Program} {s : Stmt} {later : Program} :
    ∀ {tokens : List Token}, Program.DerivesFrom (earlier ++ s :: later) tokens →
      ∃ before used after, tokens = before ++ used ++ after ∧ Program.DerivesFrom earlier before ∧
        s.DerivesFrom used ∧ Program.DerivesFrom later after := by
  induction earlier with
  | nil =>
    intro tokens h
    cases h with
    | cons hs hlater => exact ⟨[], _, _, rfl, .nil, hs, hlater⟩
  | cons first earlier ih =>
    intro tokens h
    cases h with
    | @cons _ _ front back hfirst hrest =>
      obtain ⟨before, used, after, rfl, hearlier, hs, hlater⟩ := ih hrest
      exact ⟨front ++ before, used, after, by simp only [List.append_assoc],
        .cons hfirst hearlier, hs, hlater⟩

/-! ## Lines of faults in a source -/

/-- The fault reports what stands in the source as the token with this index: it has the lexeme of that
token, and the line on which the token begins. -/
def RuntimeFault.ReportsAt (source : List Char) (index : Nat) (f : RuntimeFault) : Prop :=
  (∃ front text rest, OccursAt source index front text rest) ∧
    ∀ front text rest, OccursAt source index front text rest →
      f.operator = String.ofList text ∧ f.line = 1 + front.count '\n'

theorem Token.reportsAt {source : String} {body : List Token} {marker t : Token} {index : Nat}
    {f : RuntimeFault} (hscan : Token.scan source = .ok (body ++ [marker]))
    (hmarker : marker.isEnding = true) (ht : body[index]? = some t)
    (hreports : f.line = t.line ∧ f.operator = t.lexeme ∧ t.kind ≠ .string) :
    f.ReportsAt source.toList index := by
  obtain ⟨hline, hlexeme, hkind⟩ := hreports
  refine ⟨OccursAt.exists_of_lt hscan (List.getElem?_eq_some_iff.1 ht).1, ?_⟩
  intro front text rest hoccurs
  obtain ⟨t', ht', htext, -, hown⟩ := hoccurs.token hscan hmarker
  obtain rfl : t = t' := Option.some.inj (ht.symm.trans ht')
  exact ⟨hlexeme.trans htext, hline.trans (hown hkind).2⟩

/-- **Lines count line feeds.** If a source has tokens, each of them but the end marker has a place in
it; its line is one more than the number of line feeds up to the end of its lexeme there, and there are
line feeds in the lexemes of strings only. The end marker is behind all line feeds, and lines never
decrease. A fault of an expression that the tokens make up, alone or in a statement, is on the line on
which its own operator stands in the source. -/
theorem lines_count_lineFeeds (source : String) (tokens : List Token)
    (hscan : Token.scan source = .ok tokens) :
    ∃ body, tokens = body ++ [.endMarker (1 + source.toList.count '\n')] ∧
      tokens.Pairwise (·.line ≤ ·.line) ∧
      (∀ index < body.length, ∃ front text rest, OccursAt source.toList index front text rest) ∧
      (∀ index front text rest, OccursAt source.toList index front text rest →
        source.toList = front ++ text ++ rest ∧
        ∃ t, body[index]? = some t ∧ t.lexeme = String.ofList text ∧
          t.line = 1 + (front ++ text).count '\n' ∧
          (t.kind ≠ .string → '\n' ∉ text ∧ t.line = 1 + front.count '\n')) ∧
      (∀ e, Expr.ofTokens tokens = .ok e → ∀ f,
        (e.eval = .error (.fault f) ↔ ∃ index, e.FaultsAt body index f) ∧
        ∀ index, e.FaultsAt body index f → f.ReportsAt source.toList index) ∧
      ∀ earlier s later, Program.ofTokens tokens = .ok (earlier ++ s :: later) →
        ∃ before used after, body = before ++ used ++ after ∧
          Program.DerivesFrom earlier before ∧ Program.DerivesFrom later after ∧ ∀ f,
          (s.expr.eval = .error (.fault f) ↔ ∃ index, s.FaultsAt used index f) ∧
          ∀ index, s.FaultsAt used index f →
            f.ReportsAt source.toList (before.length + index) := by
  obtain ⟨body, rfl, hopen⟩ := Token.scan_body hscan
  have huntil : untilMarker (body ++ [.endMarker (1 + source.toList.count '\n')]) = body :=
    untilMarker_append hopen rfl
  refine ⟨body, rfl, Token.scan_lines hscan, ?_, ?_, ?_, ?_⟩
  · intro index hindex
    exact OccursAt.exists_of_lt hscan hindex
  · intro index front text rest hoccurs
    exact ⟨hoccurs.source_eq, hoccurs.token hscan rfl⟩
  · intro e he f
    have hderives := Expr.derivesFrom_of_ofTokens he
    rw [huntil] at hderives
    refine ⟨hderives.written.eval_eq_fault_iff, fun index hfaults => ?_⟩
    obtain ⟨t, ht, hreports⟩ := hfaults.reports
    exact Token.reportsAt hscan rfl ht hreports
  · intro earlier s later hprogram
    have hderives := Program.derivesFrom_of_ofTokens hprogram
    rw [huntil] at hderives
    obtain ⟨before, used, after, hbody, hearlier, hs, hlater⟩ := hderives.around
    refine ⟨before, used, after, hbody, hearlier, hlater, fun f =>
      ⟨hs.eval_eq_fault_iff, fun index hfaults => ?_⟩⟩
    obtain ⟨t, ht, hreports⟩ := hfaults.reports
    have hget : body[before.length + index]? = some t := by
      rw [hbody, List.append_assoc]
      exact getElem?_behind (getElem?_in_front ht _) _
    exact Token.reportsAt hscan rfl hget hreports

/-- A sign behind a line feed, in front of a string with another one in it: the fault is on line 2, and
the string and the end marker are on line 3. -/
theorem lines_count_lineFeeds_string :
    let sign : Token := ⟨.symbol .minus, "-", 2⟩
    let tokens : List Token := [sign, ⟨.string "\n", "\"\n\"", 3⟩, .endMarker 3]
    let e : Expr := .unary sign (.literal (.string "\n"))
    let f : RuntimeFault := ⟨.notNumber, 2, "-"⟩
    Token.scan "\n-\"\n\"" = .ok tokens ∧ Expr.ofTokens tokens = .ok e ∧
      e.eval = .error (.fault f) ∧ f.ReportsAt "\n-\"\n\"".toList 0 := by
  intro sign tokens e f
  have hgap : Cut .gap ['\n'] ('-' :: "\"\n\"".toList) := .blank rfl
  have hsign : Cut (.symbol .minus) ['-'] "\"\n\"".toList := .lone rfl
  have hstring : Cut .string ('"' :: (['\n'] ++ ['"'])) [] := .string (by simp)
  have hscans : Scans 1 (['\n'] ++ (['-'] ++ ('"' :: (['\n'] ++ ['"']) ++ []))) _ :=
    .piece hgap rfl (.piece hsign rfl (.piece hstring rfl (.done _)))
  have hscan : Token.scan "\n-\"\n\"" = .ok tokens :=
    Token.scan_of_scans (show Scans 1 "\n-\"\n\"".toList _ from hscans)
  have hderives : e.DerivesFrom [sign, ⟨.string "\n", "\"\n\"", 3⟩] :=
    ⟨.unary (.inl rfl) (.literal _) trivial, by decide, .unary (.literal rfl)⟩
  have hparsed : Expr.ofTokens tokens = .ok e := hderives.ofTokens 3
  obtain ⟨body, hbody, -, -, -, hexpr, -⟩ := lines_count_lineFeeds _ tokens hscan
  obtain rfl : [sign, ⟨.string "\n", "\"\n\"", 3⟩] = body := List.append_inj_left' hbody rfl
  have hfaults : e.FaultsAt [sign, ⟨.string "\n", "\"\n\"", 3⟩] 0 f := .unary (.literal rfl) rfl rfl
  obtain ⟨heval, hreports⟩ := hexpr e hparsed f
  exact ⟨hscan, hparsed, heval.2 ⟨0, hfaults⟩, hreports 0 hfaults⟩

end Lox
