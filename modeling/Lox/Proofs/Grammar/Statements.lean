/-
Statements and programs as the grammar has them, and the passes that read them.

A statement derives from the tokens of its expression with a semicolon behind them, and `print` in
front if it prints; a program derives from the tokens of its statements one after the other. The
first half of the file shows that a statement is read just when it derives from the tokens in
front, with no condition on what follows: the semicolon ends it.

The second half takes the passes apart. Reading all of some tokens is one step followed by reading
all of what the step leaves, both when it reads a statement and when it finds a fault, and nothing
but the remaining tokens goes from the one to the other.
-/
import Lox.Proofs.Grammar.Expressions

set_option autoImplicit false

namespace Lox

/-! ## Derivations -/

/-- The statement derives from the tokens. -/
inductive Stmt.DerivesFrom : Stmt → List Token → Prop
  | expression {e : Expr} {body : List Token} {last : Token} : e.DerivesFrom body →
      last.meaning = .symbol .semicolon → DerivesFrom (.expression e) (body ++ [last])
  | print {e : Expr} {first last : Token} {body : List Token} :
      first.meaning = .keyword .print_ → e.DerivesFrom body →
      last.meaning = .symbol .semicolon → DerivesFrom (.print e) (first :: body ++ [last])

/-- The program derives from the tokens: they are those of its statements in order. -/
inductive Program.DerivesFrom : Program → List Token → Prop
  | nil : DerivesFrom [] []
  | cons {s : Stmt} {program : Program} {front back : List Token} : s.DerivesFrom front →
      DerivesFrom program back → DerivesFrom (s :: program) (front ++ back)

/-- No statement has an end marker among its tokens. -/
theorem Stmt.DerivesFrom.isEnding_eq_false {s : Stmt} {tokens : List Token}
    (h : s.DerivesFrom tokens) : ∀ t ∈ tokens, t.isEnding = false := by
  cases h with
  | @expression e body last he hlast =>
    intro t ht
    rcases List.mem_append.1 ht with ht | ht
    · exact he.written.isEnding_eq_false he.canonical t ht
    · rw [List.mem_singleton.1 ht, last.isEnding_eq_false (by simp [hlast])]
  | @print e first last body hfirst he hlast =>
    intro t ht
    rcases List.mem_cons.1 ht with rfl | ht
    · rw [t.isEnding_eq_false (by simp [hfirst])]
    rcases List.mem_append.1 ht with ht | ht
    · exact he.written.isEnding_eq_false he.canonical t ht
    · rw [List.mem_singleton.1 ht, last.isEnding_eq_false (by simp [hlast])]

theorem Program.DerivesFrom.isEnding_eq_false {program : Program} {tokens : List Token}
    (h : Program.DerivesFrom program tokens) : ∀ t ∈ tokens, t.isEnding = false := by
  induction h with
  | nil =>
    intro t ht
    cases ht
  | cons hs _ ih =>
    intro t ht
    rcases List.mem_append.1 ht with ht | ht
    · exact hs.isEnding_eq_false t ht
    · exact ih t ht

/-! ## One statement -/

namespace Stmt

theorem semicolon_not_mem (level : Level) : Symbol.semicolon ∉ level.operators := by
  cases level <;> decide

theorem readBody_eq_ok_iff (make : Expr → Stmt) (missing : SyntaxFault) (tokens : List Token)
    (s : Stmt) (rest : List Token) :
    readBody make missing tokens = .ok (s, rest) ↔
      ∃ e body last, s = make e ∧ tokens = body ++ last :: rest ∧ e.DerivesFrom body ∧
        last.meaning = .symbol .semicolon := by
  have hclosed := Expr.reader_exact.closed_iff semicolon_not_mem missing
  rw [readBody]
  constructor
  · intro hread
    split at hread
    · simp at hread
    · rename_i e middle hbody
      split at hread
      · simp at hread
      · rename_i behind hexpect
        obtain ⟨rfl, rfl⟩ : make e = s ∧ behind = rest := by simpa using hread
        obtain ⟨body, last, htokens, hfits, hwritten, hlast⟩ :=
          (hclosed e tokens behind).1 ⟨middle, hbody, hexpect⟩
        exact ⟨e, body, last, rfl, htokens, ⟨hfits.canonical, hfits.shallow, hwritten⟩, hlast⟩
  · rintro ⟨e, body, last, rfl, rfl, ⟨hcanonical, hshallow, hwritten⟩, hlast⟩
    obtain ⟨middle, hread, hexpect⟩ := (hclosed e _ rest).2
      ⟨body, last, rfl, ⟨hcanonical, hcanonical.bindsAt_zero, hshallow⟩, hwritten, hlast⟩
    rw [hread]
    simp only [hexpect]

/-- No expression begins with `print`, so the keyword tells the statements apart. -/
theorem not_writtenBy_print {e : Expr} {t : Token} {rest : List Token}
    (hprint : t.meaning = .keyword .print_) (hcanonical : e.Canonical) :
    ¬ e.WrittenBy (t :: rest) := by
  intro hwritten
  obtain ⟨u, more, hcons, hstart⟩ := hwritten.head hcanonical
  obtain ⟨rfl, rfl⟩ : t = u ∧ rest = more := by simpa using hcons
  rcases hstart with hnegates | hparen | ⟨value, hvalue⟩
  · rw [Token.Negates, hprint] at hnegates
    simp at hnegates
  · simp [hprint] at hparen
  · rcases value with _ | _ | (_ | _) | _ <;> simp [hprint, Value.meaning] at hvalue

theorem not_derivesFrom_print {e : Expr} {t : Token} {rest : List Token}
    (hprint : t.meaning = .keyword .print_) : ¬ e.DerivesFrom (t :: rest) :=
  fun h => not_writtenBy_print hprint h.canonical h.written

theorem read_eq_ok_iff (tokens : List Token) (s : Stmt) (rest : List Token) :
    read tokens = .ok (s, rest) ↔ ∃ used, tokens = used ++ rest ∧ s.DerivesFrom used := by
  constructor
  · intro hread
    rw [read.eq_def] at hread
    split at hread
    · obtain ⟨e, body, last, -, hnil, -, -⟩ := (readBody_eq_ok_iff _ _ _ _ _).1 hread
      simp at hnil
    · rename_i t more
      split at hread
      · rename_i hkind
        obtain ⟨e, body, last, rfl, rfl, he, hlast⟩ := (readBody_eq_ok_iff _ _ _ _ _).1 hread
        exact ⟨t :: body ++ [last], by simp, .print ((t.kind_eq_keyword_iff _).1 hkind) he hlast⟩
      · obtain ⟨e, body, last, rfl, htokens, he, hlast⟩ := (readBody_eq_ok_iff _ _ _ _ _).1 hread
        exact ⟨body ++ [last], by simp [htokens], .expression he hlast⟩
  · rintro ⟨used, rfl, hderives⟩
    cases hderives with
    | @expression e body last he hlast =>
      obtain ⟨t, more, rfl, -⟩ := he.written.head he.canonical
      -- the keyword would have been taken for the other sort of statement
      have hkind : ¬ t.kind = .keyword .print_ := fun h =>
        not_derivesFrom_print ((t.kind_eq_keyword_iff _).1 h) he
      rw [List.append_assoc, List.cons_append, read, if_neg hkind, readBody_eq_ok_iff]
      exact ⟨e, t :: more, last, rfl, rfl, he, hlast⟩
    | @print e first last body hfirst he hlast =>
      rw [List.append_assoc, List.cons_append, read,
        if_pos ((first.kind_eq_keyword_iff _).2 hfirst), readBody_eq_ok_iff]
      exact ⟨e, body, last, rfl, rfl, he, hlast⟩

end Stmt

/-! ## Pass by pass -/

namespace Program

/-- The faults of a reading, none if it read a program. -/
def misfits : Except (List Misfit) Program → List Misfit
  | .ok _ => []
  | .error ms => ms

/-- Induction along the passes: what is to be shown of some tokens may be used of those behind the
statement in front, or, where there is none, of those the reading resumes at. -/
@[elab_as_elim]
theorem passes_induction {motive : List Token → Prop} (nil : motive [])
    (statement : ∀ tokens s rest, Stmt.read tokens = .ok (s, rest) → motive rest → motive tokens)
    (fault : ∀ tokens m, tokens ≠ [] → Stmt.read tokens = .error m → motive (recover m.rest) →
      motive tokens) (tokens : List Token) : motive tokens := by
  induction hlength : tokens.length using Nat.strongRecOn generalizing tokens with
  | ind n ih =>
    by_cases hnil : tokens = []
    · rw [hnil]
      exact nil
    cases hread : Stmt.read tokens with
    | ok found =>
      obtain ⟨s, rest⟩ := found
      have hshorter := ((Stmt.read_suffix tokens).1 s rest hread).2
      exact statement tokens s rest hread (ih rest.length (by omega) rest rfl)
    | error m =>
      -- recovery skips at least the offending token, so it never stands still
      have hle := ((Stmt.read_suffix tokens).2 m hread).length_le
      have hskipped := recover_length m.rest
      have hpos := List.length_pos_iff.2 hnil
      exact fault tokens m hnil hread
        (ih (recover m.rest).length (by omega) (recover m.rest) rfl)

theorem readAll_nil : readAll [] = .ok [] := by
  simp [readAll, passes]

theorem passes_of_read_ok {tokens rest : List Token} {s : Stmt}
    (hread : Stmt.read tokens = .ok (s, rest)) : passes tokens = .ok s :: passes rest := by
  cases tokens with
  | nil => exact absurd ((Stmt.read_suffix []).1 s rest hread).2 (Nat.not_lt_zero _)
  | cons t more =>
    rw [passes]
    split
    · rename_i s' rest' hread'
      obtain ⟨rfl, rfl⟩ : s = s' ∧ rest = rest' := by simpa [hread] using hread'
      rfl
    · rename_i m hread'
      simp [hread] at hread'

theorem passes_of_read_error {tokens : List Token} {m : Misfit} (hne : tokens ≠ [])
    (hread : Stmt.read tokens = .error m) :
    passes tokens = .error m :: passes (recover m.rest) := by
  cases tokens with
  | nil => exact absurd rfl hne
  | cons t more =>
    rw [passes]
    split
    · rename_i s' rest' hread'
      simp [hread] at hread'
    · rename_i m' hread'
      obtain rfl : m = m' := by simpa [hread] using hread'
      rfl

theorem readAll_of_read_ok {tokens rest : List Token} {s : Stmt}
    (hread : Stmt.read tokens = .ok (s, rest)) :
    readAll tokens = (readAll rest).map (s :: ·) := by
  rw [readAll, readAll, passes_of_read_ok hread]
  simp only [List.filterMap_cons, misfit?, statement?]
  cases (passes rest).filterMap misfit? <;> rfl

theorem readAll_of_read_error {tokens : List Token} {m : Misfit} (hne : tokens ≠ [])
    (hread : Stmt.read tokens = .error m) :
    readAll tokens = .error (m :: misfits (readAll (recover m.rest))) := by
  rw [readAll, readAll, passes_of_read_error hne hread]
  simp only [List.filterMap_cons, misfit?]
  cases (passes (recover m.rest)).filterMap misfit? <;> rfl

/-- All tokens are read as a program just when it derives from them. -/
theorem readAll_eq_ok_iff (tokens : List Token) (program : Program) :
    readAll tokens = .ok program ↔ program.DerivesFrom tokens := by
  constructor
  · intro hread
    induction tokens using passes_induction generalizing program with
    | nil =>
      obtain rfl : [] = program := by simpa [readAll_nil] using hread
      exact .nil
    | statement tokens s rest hstmt ih =>
      rw [readAll_of_read_ok hstmt] at hread
      obtain ⟨used, rfl, hs⟩ := (Stmt.read_eq_ok_iff _ _ _).1 hstmt
      cases hrest : readAll rest with
      | error ms => simp [hrest, Except.map] at hread
      | ok more =>
        obtain rfl : s :: more = program := by simpa [hrest, Except.map] using hread
        exact .cons hs (ih more hrest)
    | fault tokens m hne hstmt _ => simp [readAll_of_read_error hne hstmt] at hread
  · intro hderives
    induction hderives with
    | nil => exact readAll_nil
    | @cons s program front back hs _ ih =>
      rw [readAll_of_read_ok ((Stmt.read_eq_ok_iff _ _ _).2 ⟨front, rfl, hs⟩), ih]
      rfl

/-- Behind the tokens of a program the reading goes on as if the rest stood alone. -/
theorem readAll_append {program : Program} {front : List Token} (h : program.DerivesFrom front)
    (back : List Token) : readAll (front ++ back) = (readAll back).map (program ++ ·) := by
  induction h with
  | nil =>
    rw [List.nil_append]
    cases readAll back <;> rfl
  | @cons s program used rest hs _ ih =>
    have hread : Stmt.read (used ++ (rest ++ back)) = .ok (s, rest ++ back) :=
      (Stmt.read_eq_ok_iff _ _ _).2 ⟨used, rfl, hs⟩
    rw [List.append_assoc, readAll_of_read_ok hread, ih]
    cases readAll back <;> rfl

end Program

end Lox
