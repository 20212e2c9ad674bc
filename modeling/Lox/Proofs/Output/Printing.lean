/-
What programs print.

A statement is executed by evaluating its expression and, if it prints, by writing the value's text
and a line feed. Evaluation knows nothing of the sink, so where nothing is refused the output of a
program can be said without executing it: the printed lines of the statements in front of the first
one whose expression has no value, and the failure of that one. Where room is limited, the output is
this one cut off; by `Written.within_andThen` it is enough to know this of one statement.
-/
import Lox.Program.Execution
import Lox.Proofs.Output.Room

set_option autoImplicit false

namespace Lox

/-! ## One program behind another -/

theorem Written.andThen_assoc {α β γ : Type} (first : Written α) (next : α → Sink → Written β)
    (last : β → Sink → Written γ) :
    (first.andThen next).andThen last = first.andThen fun a sink => (next a sink).andThen last := by
  simp only [andThen, List.append_assoc]

namespace Program

variable {sink : Sink}

theorem execute_cons_of_ok {s : Stmt} (hok : (s.execute sink).result = .ok ())
    (program : Program) :
    execute sink (s :: program) = (s.execute sink).andThen fun _ sink => execute sink program := by
  rw [execute, Written.andThen, hok]
  rfl

theorem execute_cons_of_error {s : Stmt} {failure : Failure ExecutionFault}
    (hfails : (s.execute sink).result = .error failure) (program : Program) :
    execute sink (s :: program) = s.execute sink := by
  rw [execute, Written.andThen, hfails]
  simp only [List.append_nil]
  rw [← hfails]

/-- What stands behind a program that succeeds is executed where its execution ends. -/
theorem execute_append_of_ok {front : Program} (hok : (execute sink front).result = .ok ())
    (back : Program) :
    execute sink (front ++ back) =
      (execute sink front).andThen fun _ sink => execute sink back := by
  induction front generalizing sink with
  | nil => rfl
  | cons s front ih =>
    cases hs : (s.execute sink).result with
    | ok done =>
      rw [execute_cons_of_ok hs] at hok ⊢
      rw [List.cons_append, execute_cons_of_ok hs, Written.andThen_assoc, Written.andThen,
        Written.andThen, ih hok]
    | error failure =>
      rw [execute_cons_of_error hs, hs] at hok
      cases hok

/-- What stands behind a failure is never executed. -/
theorem execute_append_of_error {front : Program} {failure : Failure ExecutionFault}
    (hfails : (execute sink front).result = .error failure) (back : Program) :
    execute sink (front ++ back) = execute sink front := by
  induction front generalizing sink with
  | nil => cases hfails
  | cons s front ih =>
    cases hs : (s.execute sink).result with
    | ok done =>
      rw [execute_cons_of_ok hs] at hfails ⊢
      rw [List.cons_append, execute_cons_of_ok hs, Written.andThen, Written.andThen, ih hfails]
    | error failure =>
      rw [List.cons_append, execute_cons_of_error hs, execute_cons_of_error hs]

end Program

/-! ## Where nothing is refused -/

namespace Stmt

/-- What a statement comes to if everything is written: its expression has a value, or not. -/
def outcome (s : Stmt) : Attempt ExecutionFault Unit :=
  (s.expr.eval.reportAs .runtime).map fun _ => ()

/-- What a statement prints, if its expression has a value: the value's text and a line feed. -/
def printed : Stmt → List UInt8
  | expression _ => []
  | print e =>
    match e.eval with
    | .ok value => Text.utf8 (value.text ++ "\n")
    | .error _ => []

/-- A statement without `print` writes nothing, whatever the sink. -/
theorem execute_expression (sink : Sink) (e : Expr) :
    (expression e).execute sink = ⟨[], sink, (expression e).outcome⟩ := by
  rw [execute.eq_def, outcome]
  cases Attempt.reportAs ExecutionFault.runtime (expression e).expr.eval <;> rfl

/-- A `print` statement whose expression has no value writes nothing either. -/
theorem execute_print_of_error {e : Expr} {failure : Failure RuntimeFault}
    (heval : e.eval = .error failure) (sink : Sink) :
    (print e).execute sink = ⟨[], sink, (print e).outcome⟩ := by
  have hexpr : (print e).expr.eval = .error failure := heval
  rw [execute.eq_def, outcome, hexpr]
  cases failure <;> rfl

theorem execute_print_of_ok {e : Expr} {value : Value} (heval : e.eval = .ok value)
    (sink : Sink) :
    (print e).execute sink =
      (sink.write (print e).printed).map fun
        | none => .ok ()
        | some refusal => .error (.fault (.output refusal)) := by
  have hexpr : (print e).expr.eval = .ok value := heval
  rw [execute.eq_def, printed, hexpr, heval]
  rfl

theorem execute_of_room_none {sink : Sink} (hroom : sink.room = none) (s : Stmt) :
    s.execute sink = ⟨s.printed, sink, s.outcome⟩ := by
  cases s with
  | expression e => exact execute_expression sink e
  | print e =>
    have hexpr : (print e).expr.eval = e.eval := rfl
    cases heval : e.eval with
    | error failure =>
      rw [execute_print_of_error heval, printed, heval]
    | ok value =>
      rw [execute_print_of_ok heval, Sink.write_of_room_none hroom, outcome, hexpr, heval]
      rfl

theorem execute_within (room : Nat) (refusal : Refusal) (s : Stmt) :
    s.execute ⟨some room, refusal⟩ =
      (s.execute .endless).within room refusal (.error (.fault (.output refusal))) := by
  cases s with
  | expression e =>
    rw [execute_expression, execute_expression, Written.within_of_nil rfl]
  | print e =>
    cases heval : e.eval with
    | error failure =>
      rw [execute_print_of_error heval, execute_print_of_error heval, Written.within_of_nil rfl]
    | ok value =>
      rw [execute_print_of_ok heval, execute_print_of_ok heval, Sink.write_within,
        Written.within_map]

end Stmt

/-- A statement that fails prints nothing. -/
theorem Stmt.printed_of_error {s : Stmt} {failure : Failure ExecutionFault}
    (hfails : s.outcome = .error failure) : s.printed = [] := by
  cases s with
  | expression e => rfl
  | print e =>
    rw [outcome, expr] at hfails
    rw [printed]
    cases heval : e.eval with
    | ok value =>
      rw [heval] at hfails
      cases hfails
    | error _ => rfl

namespace Program

/-- The statements in front of the first one that fails, which is one whose expression has no
value. -/
def unfaulted (program : Program) : Program :=
  program.takeWhile fun s => s.outcome.isOk

/-- What a program prints: the lines of the statements in front of its first failure. -/
def printed (program : Program) : List UInt8 :=
  program.unfaulted.flatMap Stmt.printed

/-- What a program comes to if everything is written: its first failure, or none. -/
def outcome (program : Program) : Attempt ExecutionFault Unit :=
  forM program Stmt.outcome

section Cons

variable {s : Stmt} {failure : Failure ExecutionFault}

theorem printed_cons_of_ok (hok : s.outcome = .ok ()) (program : Program) :
    printed (s :: program) = s.printed ++ printed program := by
  have htake : unfaulted (s :: program) = s :: unfaulted program :=
    List.takeWhile_cons_of_pos (by rw [hok]; rfl)
  rw [printed, htake, List.flatMap_cons, printed]

theorem printed_cons_of_error (hfails : s.outcome = .error failure) (program : Program) :
    printed (s :: program) = [] := by
  have htake : unfaulted (s :: program) = [] :=
    List.takeWhile_cons_of_neg (by rw [hfails]; exact Bool.false_ne_true)
  rw [printed, htake, List.flatMap_nil]

theorem outcome_cons_of_ok (hok : s.outcome = .ok ()) (program : Program) :
    outcome (s :: program) = outcome program := by
  rw [outcome, List.forM_cons, hok]
  rfl

theorem outcome_cons_of_error (hfails : s.outcome = .error failure) (program : Program) :
    outcome (s :: program) = .error failure := by
  rw [outcome, List.forM_cons, hfails]
  rfl

end Cons

/-- Where nothing is refused, a program writes what it prints and comes to its outcome. -/
theorem execute_of_room_none {sink : Sink} (hroom : sink.room = none) (program : Program) :
    execute sink program = ⟨program.printed, sink, program.outcome⟩ := by
  induction program with
  | nil => rfl
  | cons s program ih =>
    have hs : s.execute sink = ⟨s.printed, sink, s.outcome⟩ := Stmt.execute_of_room_none hroom s
    cases houtcome : s.outcome with
    | ok done =>
      have hok : (s.execute sink).result = .ok () := by rw [hs, houtcome]
      rw [execute_cons_of_ok hok, hs, Written.andThen, ih, printed_cons_of_ok houtcome,
        outcome_cons_of_ok houtcome]
    | error failure =>
      have hfails : (s.execute sink).result = .error failure := by rw [hs, houtcome]
      rw [execute_cons_of_error hfails, hs, printed_cons_of_error houtcome,
        outcome_cons_of_error houtcome, Stmt.printed_of_error houtcome, houtcome]

/-- Where room is limited, what a program writes is cut off, and so is what it comes to. -/
theorem execute_within (room : Nat) (refusal : Refusal) (program : Program) :
    execute ⟨some room, refusal⟩ program =
      (execute .endless program).within room refusal (.error (.fault (.output refusal))) := by
  induction program generalizing room with
  | nil => rw [execute, execute, Written.within_of_nil rfl]
  | cons s program ih =>
    rw [execute, execute, Stmt.execute_within]
    apply Written.within_andThen
    · intro left
      have hs : s.execute .endless = ⟨s.printed, .endless, s.outcome⟩ :=
        Stmt.execute_of_room_none rfl s
      rw [hs]
      cases s.outcome with
      | ok done => exact ih left
      | error failure => rw [Written.within_of_nil rfl]
    · intro sink
      rfl

end Program

end Lox
