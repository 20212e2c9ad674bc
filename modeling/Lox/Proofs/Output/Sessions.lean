/-
A sink that refuses only truncates.

The steps of a session share nothing but the sink. So a step on a sink with limited room does what
it does by itself on a sink without a limit, with its output cut off where the room ends; a cut is
reported as a fault of the output, whatever else would have been reported. The room for a step is
what the outputs of the steps before it leave, and since an output that does not fit uses up all
there is, that is the room of the session less the bytes of those outputs, down to zero.
-/
import Lox.Proofs.Contracts
import Lox.Proofs.Lexing.Seam
import Lox.Proofs.Output.Printing

set_option autoImplicit false

namespace Lox

/-! ## A step by itself -/

namespace Entry

/-- What an entry writes: an expression writes nothing, a program what it prints. -/
def printed : Entry → List UInt8
  | expression _ => []
  | program p => p.printed

/-- What an entry comes to if everything is written. The answer to an expression is its value. -/
def outcome : Entry → Attempt RunFault (Option Value)
  | expression e => (e.eval.reportAs (.execution ∘ .runtime)).map some
  | program p => (p.outcome.reportAs .execution).map fun () => none

/-- Evaluates an expression or executes a program. -/
def run (sink : Sink) (entry : Entry) : Written (Attempt RunFault (Option Value)) :=
  match entry with
  | expression _ => ⟨[], sink, entry.outcome⟩
  | program p => (runProgram sink p).map (·.map fun () => none)

theorem run_of_room_none {sink : Sink} (hroom : sink.room = none) (entry : Entry) :
    entry.run sink = ⟨entry.printed, sink, entry.outcome⟩ := by
  cases entry with
  | expression e => rfl
  | program p =>
    rw [run, runProgram, Program.execute_of_room_none hroom]
    rfl

theorem run_within (room : Nat) (refusal : Refusal) (entry : Entry) :
    entry.run ⟨some room, refusal⟩ =
      (entry.run .endless).within room refusal
        (.error (.fault (.execution (.output refusal)))) := by
  cases entry with
  | expression e =>
    rw [run, run, Written.within_of_nil rfl]
  | program p =>
    rw [run, run, runProgram, runProgram, Program.execute_within, Written.within_map,
      Written.within_map]
    rfl

end Entry

namespace Step

/-- What a step says. A source is always read as a program. -/
def entry : Step → Attempt RunFault Entry
  | line text => entryOf text
  | source text => (programOf text).map .program

/-- What a step writes if everything is taken. A step that does not compile writes nothing. -/
def printed (step : Step) : List UInt8 :=
  match step.entry with
  | .error _ => []
  | .ok entry => entry.printed

/-- What a step comes to if everything is written. -/
def outcome (step : Step) : Attempt RunFault (Option Value) := do
  let entry ← step.entry
  entry.outcome

theorem run_of_entry_error {step : Step} {failure : Failure RunFault}
    (hentry : step.entry = .error failure) (sink : Sink) :
    step.run sink = ⟨[], sink, .error failure⟩ := by
  cases step with
  | line text =>
    have hline : entryOf text = .error failure := hentry
    rw [run, runLine, hline]
  | source text =>
    rw [entry] at hentry
    rw [run, runSource]
    cases hprogram : programOf text with
    | ok p =>
      rw [hprogram] at hentry
      cases hentry
    | error failure' =>
      rw [hprogram] at hentry
      obtain rfl : failure' = failure := Except.error.inj hentry
      rfl

theorem run_of_entry_ok {step : Step} {found : Entry} (hentry : step.entry = .ok found)
    (sink : Sink) : step.run sink = found.run sink := by
  cases step with
  | line text =>
    have hline : entryOf text = .ok found := hentry
    rw [run, runLine, hline]
    cases found <;> rfl
  | source text =>
    rw [entry] at hentry
    rw [run, runSource]
    cases hprogram : programOf text with
    | ok p =>
      rw [hprogram] at hentry
      obtain rfl : .program p = found := Except.ok.inj hentry
      rfl
    | error failure =>
      rw [hprogram] at hentry
      cases hentry

/-- Where nothing is refused, a step writes what it prints and comes to its outcome. -/
theorem run_of_room_none {sink : Sink} (hroom : sink.room = none) (step : Step) :
    step.run sink = ⟨step.printed, sink, step.outcome⟩ := by
  rw [printed, outcome]
  cases hentry : step.entry with
  | error failure =>
    rw [run_of_entry_error hentry]
    rfl
  | ok found =>
    rw [run_of_entry_ok hentry, Entry.run_of_room_none hroom]
    rfl

/-- Where room is limited, a step is cut off. -/
theorem run_within (room : Nat) (refusal : Refusal) (step : Step) :
    step.run ⟨some room, refusal⟩ =
      (step.run .endless).within room refusal
        (.error (.fault (.execution (.output refusal)))) := by
  cases hentry : step.entry with
  | error failure =>
    rw [run_of_entry_error hentry, run_of_entry_error hentry, Written.within_of_nil rfl]
  | ok found =>
    rw [run_of_entry_ok hentry, run_of_entry_ok hentry, Entry.run_within]

end Step

/-! ## Sessions -/

/-- The room that the first `k` steps of a session leave. -/
def roomLeft (room : Nat) (steps : List Step) (k : Nat) : Nat :=
  room - ((steps.take k).flatMap Step.printed).length

theorem roomLeft_zero (room : Nat) (steps : List Step) : roomLeft room steps 0 = room := by
  rw [roomLeft, List.take_zero, List.flatMap_nil, List.length_nil, Nat.sub_zero]

theorem roomLeft_cons (room : Nat) (step : Step) (steps : List Step) (k : Nat) :
    roomLeft room (step :: steps) (k + 1) =
      roomLeft (room - step.printed.length) steps k := by
  rw [roomLeft, roomLeft, List.take_succ_cons, List.flatMap_cons, List.length_append]
  omega

/-- Every step takes the room for what it writes, or all there is. -/
theorem roomLeft_succ {steps : List Step} {k : Nat} {step : Step}
    (hstep : steps[k]? = some step) (room : Nat) :
    roomLeft room steps (k + 1) = roomLeft room steps k - step.printed.length := by
  have htake : steps.take (k + 1) = steps.take k ++ [step] := by
    rw [List.take_add_one, hstep]
    rfl
  rw [roomLeft, roomLeft, htake, List.flatMap_append, List.flatMap_singleton, List.length_append]
  omega

theorem runSession_length (sink : Sink) (steps : List Step) :
    (runSession sink steps).length = steps.length := by
  induction steps generalizing sink with
  | nil => rfl
  | cons step steps ih => rw [runSession, List.length_cons, List.length_cons, ih]

/-- Each step of a session is cut off at the room that the steps before it leave. -/
theorem runSession_getElem? (room : Nat) (refusal : Refusal) (steps : List Step) (k : Nat) :
    (runSession ⟨some room, refusal⟩ steps)[k]? = (steps[k]?).map fun step =>
      (step.run .endless).within (roomLeft room steps k) refusal
        (.error (.fault (.execution (.output refusal)))) := by
  induction steps generalizing room k with
  | nil => rfl
  | cons step steps ih =>
    rw [runSession, Step.run_within]
    cases k with
    | zero => rw [List.getElem?_cons_zero, List.getElem?_cons_zero, roomLeft_zero]; rfl
    | succ k =>
      -- what the first step leaves is the room that the others begin with
      have hprinted : (step.run .endless).bytes = step.printed := by
        rw [Step.run_of_room_none rfl]
      rw [List.getElem?_cons_succ, List.getElem?_cons_succ, roomLeft_cons, ← hprinted]
      exact ih _ k

/-- **A sink that refuses only truncates.** In a session on a sink with room for `n` bytes, the
first step has room for `n`, and every step writes the first bytes of what it writes by itself, as
many as it has room for. It comes to what it comes to by itself if that is all of them, and else to
a fault of the output, and the next step has room for the bytes that were not written; a step that
writes nothing by itself is not affected. By itself, a step writes nothing if it does not compile,
nothing for an expression, and for a program the lines printed in front of its first failure. What
stands behind a failure in a program is not executed. An expression is evaluated without the sink.
And it makes no difference in which pieces a sink is given its bytes. -/
theorem runSession_truncates (n : Nat) (refusal : Refusal) (steps : List Step) :
    roomLeft n steps 0 = n ∧
    (runSession ⟨some n, refusal⟩ steps).length = steps.length ∧
    (∀ k step, steps[k]? = some step →
      ∃ w, (runSession ⟨some n, refusal⟩ steps)[k]? = some w ∧
        w.bytes = (step.run .endless).bytes.take (roomLeft n steps k) ∧
        w.result = (if (step.run .endless).bytes.length ≤ roomLeft n steps k then
          (step.run .endless).result else .error (.fault (.execution (.output refusal)))) ∧
        w.sink = ⟨some (roomLeft n steps (k + 1)), refusal⟩ ∧
        roomLeft n steps (k + 1) = roomLeft n steps k - w.bytes.length ∧
        ((step.run .endless).bytes = [] → w.bytes = [] ∧ w.result = (step.run .endless).result)) ∧
    (∀ step : Step, (step.run .endless).bytes = step.printed ∧
      (step.run .endless).result = step.outcome) ∧
    (∀ sink front back failure, (Program.execute sink front).result = .error failure →
      Program.execute sink (front ++ back) = Program.execute sink front) ∧
    (∀ sink line e, entryOf line = .ok (.expression e) →
      (runLine sink line).bytes = [] ∧ (runLine sink line).sink = sink) ∧
    (∀ sink e, ((Stmt.expression e).execute sink).bytes = [] ∧
      ((Stmt.expression e).execute sink).sink = sink) ∧
    ∀ (sink : Sink) pieces, sink.writeEach pieces = sink.write pieces.flatten := by
  refine ⟨roomLeft_zero n steps, runSession_length _ steps, ?_, ?_, ?_, ?_, ?_, ?_⟩
  · intro k step hstep
    have hprinted : (step.run .endless).bytes = step.printed := by
      rw [Step.run_of_room_none rfl]
    refine ⟨(step.run .endless).within (roomLeft n steps k) refusal
      (.error (.fault (.execution (.output refusal)))), ?_, rfl, rfl, ?_, ?_, ?_⟩
    · rw [runSession_getElem?, hstep]
      rfl
    · rw [roomLeft_succ hstep, Written.within, hprinted]
    · -- less all that is written by itself, or less all there is
      rw [roomLeft_succ hstep, Written.within, List.length_take, hprinted]
      omega
    · intro hnil
      rw [Written.within_of_nil hnil]
      exact ⟨rfl, rfl⟩
  · intro step
    rw [Step.run_of_room_none rfl]
    exact ⟨rfl, rfl⟩
  · intro sink front back failure hfails
    exact Program.execute_append_of_error hfails back
  · intro sink line e hline
    rw [runLine, hline]
    exact ⟨rfl, rfl⟩
  · intro sink e
    rw [Stmt.execute_expression]
    exact ⟨rfl, rfl⟩
  · exact fun sink pieces => sink.writeEach_eq_write pieces

/-- A program that prints four bytes, run twice in a session on a sink with room for five, and one
that prints nothing. The second run is cut off behind its first byte, and the third is not. -/
theorem runSession_truncates_second_line :
    let steps : List Step := [.source "print nil;", .source "print nil;", .source ""]
    (∃ w, (runSession ⟨some 5, .closed⟩ steps)[1]? = some w ∧ w.bytes = Text.utf8 "n" ∧
        w.result = .error (.fault (.execution (.output .closed)))) ∧
      ∃ w, (runSession ⟨some 5, .closed⟩ steps)[2]? = some w ∧ w.bytes = [] ∧
        w.result = .ok none := by
  intro steps
  have hword : Cut .word "print".toList " nil;".toList :=
    .word rfl (List.all_eq_true.1 rfl) (by rintro x ⟨⟩; rfl)
  have hblank : Cut .gap " ".toList "nil;".toList := .blank rfl
  have hword' : Cut .word "nil".toList ";".toList :=
    .word rfl (List.all_eq_true.1 rfl) (by rintro x ⟨⟩; rfl)
  have hsemicolon : Cut (.symbol .semicolon) ";".toList [] := .lone rfl
  have hscans : Scans 1 ("print".toList ++ " nil;".toList) _ :=
    .piece hword rfl (.piece hblank rfl (.piece hword' rfl (.piece hsemicolon rfl (.done _))))
  have hscan : Token.scan "print nil;" = .ok ([⟨.keyword .print_, "print", 1⟩,
      ⟨.keyword .nil_, "nil", 1⟩, ⟨.symbol .semicolon, ";", 1⟩] ++ [.endMarker 1]) :=
    Token.scan_of_scans (show Scans 1 "print nil;".toList _ from hscans)
  have hempty : Token.scan "" = .ok ([] ++ [.endMarker 1]) :=
    Token.scan_of_scans (show Scans 1 "".toList _ from .done 1)
  have hnil : (Expr.literal .nil).DerivesFrom [⟨.keyword .nil_, "nil", 1⟩] :=
    ⟨.literal _, by decide, .literal rfl⟩
  have hprogram : programOf "print nil;" = .ok [.print (.literal .nil)] := by
    rw [programOf_of_scan hscan (by decide) rfl, Attempt.mapError_eq_ok_iff,
      Program.readAll_eq_ok_iff]
    exact .cons (.print rfl hnil rfl) .nil
  have hnone : programOf "" = .ok [] := by
    rw [programOf_of_scan hempty (by simp) rfl, Program.readAll_nil]
    rfl
  have hrun : (Step.source "print nil;").run .endless =
      ⟨Text.utf8 "nil\n", .endless, .ok none⟩ := by
    rw [Step.run, runSource, hprogram]
    rfl
  have hrun' : (Step.source "").run .endless = ⟨[], .endless, .ok none⟩ := by
    rw [Step.run, runSource, hnone]
    rfl
  obtain ⟨-, -, hsteps, hprinted, -⟩ := runSession_truncates 5 .closed steps
  obtain ⟨w, hw, hbytes, hresult, -⟩ := hsteps 1 _ rfl
  obtain ⟨w', hw', -, -, -, -, hsilent⟩ := hsteps 2 _ rfl
  -- the first line takes four of the five bytes
  have hroom : roomLeft 5 steps 1 = 1 := by
    have hfirst := (hprinted (.source "print nil;")).1
    rw [hrun] at hfirst
    change 5 - ((Step.source "print nil;").printed ++ []).length = 1
    rw [← hfirst]
    rfl
  rw [hrun, hroom] at hbytes hresult
  refine ⟨⟨w, hw, hbytes, hresult⟩, w', hw', ?_⟩
  rw [hrun'] at hsilent
  exact hsilent rfl

end Lox
