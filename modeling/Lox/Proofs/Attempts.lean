/-
Attempts that break no contract.

An attempt is a result, a fault of what was given to a stage, or a breach. The first two are what a
stage is for; that the third does not happen is written `Keeps`. Stages are put together from
attempts in a few ways only, and each of these keeps what its parts keep. A result that comes out of
one of them went in as the result of its first part.
-/
import Lox.Failure

set_option autoImplicit false

namespace Lox.Attempt

variable {ε δ α β : Type}

/-- The attempt breaks no contract. -/
def Keeps (attempt : Attempt ε α) : Prop :=
  ∀ b : Breach, attempt ≠ .error (.breach b)

theorem keeps_ok (a : α) : Keeps (.ok a : Attempt ε α) := by
  rintro b ⟨⟩

theorem keeps_fault (e : ε) : Keeps (.error (.fault e) : Attempt ε α) := by
  rintro b ⟨⟩

/-- An attempt that breaks no contract is a result or a fault. -/
theorem Keeps.result_or_fault {attempt : Attempt ε α} (h : Keeps attempt) :
    (∃ a, attempt = .ok a) ∨ ∃ e, attempt = .error (.fault e) := by
  rcases attempt with (e | b) | a
  · exact .inr ⟨e, rfl⟩
  · exact absurd rfl (h b)
  · exact .inl ⟨a, rfl⟩

/-- A failure is the same whatever the result would have been. -/
theorem Keeps.error {failure : Failure ε} (h : Keeps (.error failure : Attempt ε α)) :
    Keeps (.error failure : Attempt ε β) := by
  intro b hb
  exact h b (by rw [Except.error.inj hb])

/-! ## One after the other -/

theorem Keeps.bind {attempt : Attempt ε α} {next : α → Attempt ε β} (h : Keeps attempt)
    (hnext : ∀ a, attempt = .ok a → Keeps (next a)) : Keeps (attempt >>= next) := by
  rcases h.result_or_fault with ⟨a, rfl⟩ | ⟨e, rfl⟩
  · exact hnext a rfl
  · exact keeps_fault e

theorem bind_eq_ok {attempt : Attempt ε α} {next : α → Attempt ε β} {b : β}
    (h : attempt >>= next = .ok b) : ∃ a, attempt = .ok a ∧ next a = .ok b := by
  cases attempt with
  | ok a => exact ⟨a, rfl, h⟩
  | error failure => cases h

/-! ## In other terms -/

theorem Keeps.map {attempt : Attempt ε α} (h : Keeps attempt) (f : α → β) :
    Keeps (Except.map f attempt : Attempt ε β) := by
  rcases h.result_or_fault with ⟨a, rfl⟩ | ⟨e, rfl⟩
  · exact keeps_ok (f a)
  · exact keeps_fault e

/-- A failure is the same whatever is made of a result. -/
theorem map_eq_error_iff {attempt : Attempt ε α} {f : α → β} {failure : Failure ε} :
    (Except.map f attempt : Attempt ε β) = .error failure ↔ attempt = .error failure := by
  cases attempt <;> simp [Except.map]

theorem Keeps.reportAs {attempt : Attempt ε α} (h : Keeps attempt) (f : ε → δ) :
    Keeps (attempt.reportAs f) := by
  rcases h.result_or_fault with ⟨a, rfl⟩ | ⟨e, rfl⟩
  · exact keeps_ok a
  · exact keeps_fault (f e)

theorem reportAs_eq_ok {attempt : Attempt ε α} {f : ε → δ} {a : α}
    (h : attempt.reportAs f = .ok a) : attempt = .ok a := by
  rcases attempt with (e | b) | found
  · cases h
  · cases h
  · rw [← Except.ok.inj h]

theorem isOk_reportAs (attempt : Attempt ε α) (f : ε → δ) :
    (attempt.reportAs f).isOk = attempt.isOk := by
  rcases attempt with (e | b) | a <;> rfl

theorem reportAs_bind (attempt : Attempt ε α) (next : α → Attempt ε β) (f : ε → δ) :
    (attempt >>= next).reportAs f = attempt.reportAs f >>= fun a => (next a).reportAs f := by
  rcases attempt with (e | b) | a <;> rfl

/-- Where nothing but faults is found, no contract is broken. -/
theorem keeps_mapError (result : Except δ α) (f : δ → ε) :
    Keeps (result.mapError fun e => .fault (f e) : Attempt ε α) := by
  cases result with
  | error e => exact keeps_fault (f e)
  | ok a => exact keeps_ok a

/-- A result is the same in whatever terms the faults are. -/
theorem mapError_eq_ok_iff {result : Except δ α} {f : δ → ε} {a : α} :
    result.mapError f = .ok a ↔ result = .ok a := by
  constructor
  · intro h
    cases result with
    | error e => cases h
    | ok found => rw [Except.ok.inj h]
  · rintro rfl
    rfl

/-- A fault is the one that was found. -/
theorem mapError_eq_fault_iff {result : Except ε α} {e : ε} :
    (result.mapError .fault : Attempt ε α) = .error (.fault e) ↔ result = .error e := by
  constructor
  · intro h
    cases result with
    | error found => rw [Failure.fault.inj (Except.error.inj h)]
    | ok a => cases h
  · rintro rfl
    rfl

/-- Where faults are reported in other terms, a fault is one that was found, in these. -/
theorem mapError_eq_fault_iff_exists {result : Except δ α} {f : δ → ε} {e : ε} :
    (result.mapError fun d => .fault (f d) : Attempt ε α) = .error (.fault e) ↔
      ∃ d, result = .error d ∧ e = f d := by
  constructor
  · intro h
    cases result with
    | error d => exact ⟨d, rfl, (Failure.fault.inj (Except.error.inj h)).symm⟩
    | ok a => cases h
  · rintro ⟨d, rfl, rfl⟩
    rfl

end Lox.Attempt
