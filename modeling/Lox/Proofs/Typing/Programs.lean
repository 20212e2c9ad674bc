/-
Programs that differ in the payloads of their literals only.

What a program comes to, where nothing is refused, is the first failure among its statements, and
which statement that is, and what its failure is, can be told from the outlines of the statements.
So two programs of one outline stop at the same statement with the same fault, or neither of them
stops, however different the values are that they compute and print.
-/
import Lox.Proofs.Output.Printing
import Lox.Proofs.Typing.Outlines

set_option autoImplicit false

namespace Lox

/-! ## Outlines of statements -/

/-- A statement of whose literals only the types are known. -/
inductive StmtOutline
  | expression (e : Outline)
  | print (e : Outline)

/-- The outline of a statement. -/
def Stmt.outline : Stmt → StmtOutline
  | expression e => .expression e.outline
  | print e => .print e.outline

namespace StmtOutline

/-- The outline of the expression of a statement. -/
def expr : StmtOutline → Outline
  | expression e => e
  | print e => e

/-- What a statement with this outline comes to if everything is written. -/
def check (o : StmtOutline) : Attempt ExecutionFault Unit :=
  match o.expr.check with
  | .ok _ => .ok ()
  | .error f => .error (.fault (.runtime f))

end StmtOutline

namespace Stmt

theorem outline_expr (s : Stmt) : s.outline.expr = s.expr.outline := by
  cases s <;> rfl

/-- The outline of a statement decides what it comes to. -/
theorem outcome_eq_check {s : Stmt} (h : s.expr.Operated) : s.outcome = s.outline.check := by
  rw [outcome, StmtOutline.check, outline_expr]
  rcases h.eval_judged.cases with ⟨value, heval, hcheck⟩ | ⟨f, heval, hcheck⟩
  · rw [heval, hcheck]
    rfl
  · rw [heval, hcheck]
    rfl

/-- A statement that fails does so for a fault of its expression. -/
theorem fault_of_outcome_error {s : Stmt} (h : s.expr.Operated)
    {failure : Failure ExecutionFault} (hfails : s.outcome = .error failure) :
    ∃ f, s.expr.eval = .error (.fault f) ∧ failure = .fault (.runtime f) := by
  rw [outcome] at hfails
  rcases h.eval_judged.cases with ⟨value, heval, -⟩ | ⟨f, heval, -⟩
  · rw [heval] at hfails
    cases hfails
  · rw [heval] at hfails
    exact ⟨f, heval, (Except.error.inj hfails).symm⟩

end Stmt

/-! ## Outlines of programs -/

namespace Program

/-- The outlines of its statements decide what a program comes to. -/
theorem outcome_eq_check {program : Program} (h : Operated program) :
    program.outcome = forM (program.map Stmt.outline) StmtOutline.check := by
  induction program with
  | nil => rfl
  | cons s program ih =>
    have hs : s.outcome = s.outline.check :=
      Stmt.outcome_eq_check (h s (List.mem_cons_self ..))
    have hrest : Operated program := fun t ht => h t (List.mem_cons_of_mem _ ht)
    have hih : forM program Stmt.outcome = forM (program.map Stmt.outline) StmtOutline.check :=
      ih hrest
    rw [outcome, List.map_cons, List.forM_cons, List.forM_cons, hs, hih]

/-- A program fails with its first statement that fails, if there is one. -/
theorem outcome_cases (program : Program) :
    program.outcome = .ok () ∨
      ∃ (k : Nat) (s : Stmt) (failure : Failure ExecutionFault), program[k]? = some s ∧
        s.outcome = .error failure ∧ outcome (program.take k) = .ok () ∧
        program.outcome = .error failure := by
  induction program with
  | nil => exact .inl rfl
  | cons s program ih =>
    cases hs : s.outcome with
    | error failure =>
      exact .inr ⟨0, s, failure, rfl, hs, rfl, outcome_cons_of_error hs program⟩
    | ok done =>
      rw [outcome_cons_of_ok hs]
      rcases ih with hok | ⟨k, t, failure, hget, ht, hfront, hfails⟩
      · exact .inl hok
      · have hfront' : outcome ((s :: program).take (k + 1)) = .ok () := by
          rw [List.take_succ_cons, outcome_cons_of_ok hs, hfront]
        exact .inr ⟨k + 1, t, failure, hget, ht, hfront', hfails⟩

/-- Where nothing is refused, a program whose operators are operators fails with a fault of its
expressions only. -/
theorem outcome_ok_or_runtime {program : Program} (h : Operated program) :
    program.outcome = .ok () ∨ ∃ f, program.outcome = .error (.fault (.runtime f)) := by
  rcases program.outcome_cases with hok | ⟨k, s, failure, hs, hfails, -, hwhole⟩
  · exact .inl hok
  · obtain ⟨f, -, rfl⟩ := Stmt.fault_of_outcome_error (h s (List.mem_of_getElem? hs)) hfails
    exact .inr ⟨f, hwhole⟩

theorem Operated.take {program : Program} (h : Operated program) (k : Nat) :
    Operated (program.take k) :=
  fun s hs => h s (List.mem_of_mem_take hs)

/-- Statements of one outline have the same operators. -/
theorem Operated.of_outline_eq {p q : Program} (h : Operated p)
    (hsame : p.map Stmt.outline = q.map Stmt.outline) : Operated q := by
  intro t ht
  have hmem : t.outline ∈ p.map Stmt.outline := by
    rw [hsame]
    exact List.mem_map_of_mem ht
  obtain ⟨s, hs, houtline⟩ := List.mem_map.1 hmem
  have hexpr : s.expr.outline = t.expr.outline := by
    rw [← Stmt.outline_expr, ← Stmt.outline_expr, houtline]
  exact (h s hs).of_outline_eq hexpr

/-- Programs of one outline come to the same. -/
theorem outcome_eq_of_outline_eq {p q : Program} (h : Operated p)
    (hsame : p.map Stmt.outline = q.map Stmt.outline) : p.outcome = q.outcome := by
  rw [outcome_eq_check h, outcome_eq_check (h.of_outline_eq hsame), hsame]

end Program

/-- **Types decide which evaluations fail.** For every tree whose operators are operators, the check
of its outline gives the type of its value, or the fault that it has instead; two trees of one
outline both have a value, and of the same type, or both have the same fault. And two programs of
one outline, on a sink that takes everything, both succeed, or both fail at the same statement with
the same fault. -/
theorem Expr.eval_decided_by_types :
    (∀ e : Expr, e.Operated →
      (∀ type, (∃ value, e.eval = .ok value ∧ value.type = type) ↔ e.outline.check = .ok type) ∧
      ∀ f, e.eval = .error (.fault f) ↔ e.outline.check = .error f) ∧
    (∀ e other : Expr, e.Operated → e.outline = other.outline →
      (∃ v w, e.eval = .ok v ∧ other.eval = .ok w ∧ v.type = w.type) ∨
      ∃ f, e.eval = .error (.fault f) ∧ other.eval = .error (.fault f)) ∧
    ∀ (p q : Program) (sink : Sink), Program.Operated p →
      p.map Stmt.outline = q.map Stmt.outline → sink.room = none →
      ((Program.execute sink p).result = .ok () ∧ (Program.execute sink q).result = .ok ()) ∨
      ∃ k s t f, p[k]? = some s ∧ q[k]? = some t ∧
        s.expr.eval = .error (.fault f) ∧ t.expr.eval = .error (.fault f) ∧
        (Program.execute sink (p.take k)).result = .ok () ∧
        (Program.execute sink (q.take k)).result = .ok () ∧
        (Program.execute sink p).result = .error (.fault (.runtime f)) ∧
        (Program.execute sink q).result = .error (.fault (.runtime f)) := by
  refine ⟨fun e h => ⟨h.eval_judged.ok_iff, h.eval_judged.error_iff⟩, ?_, ?_⟩
  · intro e other h hsame
    have hother := (h.of_outline_eq hsame).eval_judged
    rw [← hsame] at hother
    rcases h.eval_judged.cases with ⟨v, hv, hcheck⟩ | ⟨f, hf, hcheck⟩
    · obtain ⟨w, hw, htype⟩ := (hother.ok_iff v.type).2 hcheck
      exact .inl ⟨v, w, hv, hw, htype.symm⟩
    · exact .inr ⟨f, hf, (hother.error_iff f).2 hcheck⟩
  · intro p q sink h hsame hroom
    have hq := h.of_outline_eq hsame
    have hresult : ∀ program : Program,
        (Program.execute sink program).result = program.outcome := by
      intro program
      rw [Program.execute_of_room_none hroom]
    simp only [hresult, ← Program.outcome_eq_of_outline_eq h hsame]
    rcases p.outcome_cases with hok | ⟨k, s, failure, hs, hfails, hfront, hwhole⟩
    · exact .inl ⟨hok, hok⟩
    · -- the statement of the same number in the other program has the same outline
      have hget : (q.map Stmt.outline)[k]? = some s.outline := by
        rw [← hsame, List.getElem?_map, hs]
        rfl
      rw [List.getElem?_map, Option.map_eq_some_iff] at hget
      obtain ⟨t, ht, houtline⟩ := hget
      have hsoperated := h s (List.mem_of_getElem? hs)
      have htoperated := hq t (List.mem_of_getElem? ht)
      have htfails : t.outcome = .error failure := by
        rw [Stmt.outcome_eq_check htoperated, houtline, ← Stmt.outcome_eq_check hsoperated, hfails]
      obtain ⟨f, hf, rfl⟩ := Stmt.fault_of_outcome_error hsoperated hfails
      obtain ⟨f', hf', hcause⟩ := Stmt.fault_of_outcome_error htoperated htfails
      obtain rfl : f = f' := by simpa using hcause
      have hfront' : Program.outcome (q.take k) = .ok () := by
        rw [← hfront]
        symm
        apply Program.outcome_eq_of_outline_eq (h.take k)
        rw [List.map_take, List.map_take, hsame]
      exact .inr ⟨k, s, t, f, hs, ht, hf, hf', hfront, hfront', hwhole, hwhole⟩

/-- The negative of two texts put together, which fails whatever the texts are, behind a statement
that prints one of them. -/
theorem Expr.eval_decided_by_types_negated_text :
    let plus : Token := ⟨.symbol .plus, "+", 1⟩
    let minus : Token := ⟨.symbol .minus, "-", 2⟩
    let negated : String → String → Expr := fun a b =>
      .unary minus (.binary (.literal (.string a)) plus (.literal (.string b)))
    let program : String → String → Program := fun a b =>
      [.print (.literal (.string a)), .expression (negated a b)]
    (negated "" "a").Operated ∧
      (negated "" "a").eval = .error (.fault ⟨.notNumber, 2, "-"⟩) ∧
      ∃ (k : Nat) (s t : Stmt) (f : RuntimeFault), (program "" "a")[k]? = some s ∧
        (program "b" "")[k]? = some t ∧ s.expr.eval = .error (.fault f) ∧
        t.expr.eval = .error (.fault f) := by
  intro plus minus negated program
  have hnegated : (negated "" "a").Operated :=
    ⟨.inl rfl, trivial, ⟨.term, .plus, by decide, rfl⟩, trivial⟩
  have hprogram : Program.Operated (program "" "a") := by
    intro s hs
    rcases List.mem_cons.1 hs with rfl | hs
    · trivial
    · rw [List.mem_singleton.1 hs]
      exact hnegated
  obtain ⟨hcheck, -, hprograms⟩ := Expr.eval_decided_by_types
  have heval := ((hcheck _ hnegated).2 ⟨.notNumber, 2, "-"⟩).2 rfl
  refine ⟨hnegated, heval, ?_⟩
  rcases hprograms _ (program "b" "") .endless hprogram rfl rfl with ⟨hok, -⟩ | hfails
  · cases hok
  · obtain ⟨k, s, t, f, hs, ht, hf, hf', -⟩ := hfails
    exact ⟨k, s, t, f, hs, ht, hf, hf'⟩

end Lox
