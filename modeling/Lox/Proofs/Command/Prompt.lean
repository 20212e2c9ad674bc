/-
A prompt session.

A session has no state but its sink, and a sink without a limit is the same before and after every
write. So each line is answered as it would be by itself, whatever the lines in front of it came
to, and the whole session is these answers one behind the other, with a mark in front of each. It
goes on to the end of the input or to the first line that is no text; there the mark stands once
more, with no answer behind it.

`answer_of_room_none` says this of one line and `runPrompt_append` of any number of them, both also
for a prompt that shows a view. A run of the command is such a session whenever its arguments ask
for one, in whatever way they are read.
-/
import Lox.Proofs.Command.Scripts
import Lox.Proofs.Output.Lines
import Lox.Proofs.Output.Sessions

set_option autoImplicit false

namespace Lox

/-! ## The faults of a line -/

/-- A line that says nothing has diagnostics: it is no program either. -/
theorem entryOf_eq_error {line : String} {failure : Failure RunFault}
    (h : entryOf line = .error failure) : ∃ ds, failure = .fault (.compile ds) := by
  by_cases hline : ∃ e, IsExpression line e
  · obtain ⟨e, he⟩ := hline
    rw [he.entryOf_eq] at h
    cases h
  · rw [entryOf_of_not_isExpression (not_exists.1 hline), Attempt.map_eq_error_iff] at h
    exact programOf_eq_error h

/-- What a line says fails with a fault of evaluation, if everything is taken. -/
theorem Entry.outcome_eq_error {entry : Entry} {failure : Failure RunFault}
    (hoperated : entry.Operated) (h : entry.outcome = .error failure) :
    ∃ f, failure = .fault (.execution (.runtime f)) := by
  cases entry with
  | expression e =>
    rcases (Expr.Operated.eval_keeps hoperated).result_or_fault with ⟨value, hvalue⟩ | ⟨f, hfault⟩
    · rw [outcome, hvalue] at h
      cases h
    · rw [outcome, hfault] at h
      exact ⟨f, (Except.error.inj h).symm⟩
  | program p =>
    rcases Program.outcome_ok_or_runtime hoperated with hok | ⟨f, hfails⟩
    · rw [outcome, hok] at h
      cases h
    · rw [outcome, hfails] at h
      exact ⟨f, (Except.error.inj h).symm⟩

/-- A line that fails has diagnostics or a fault of evaluation. -/
theorem runLine_eq_error {line : String} {failure : Failure RunFault}
    (hfails : (runLine .endless line).result = .error failure) :
    (∃ ds, failure = .fault (.compile ds)) ∨
      ∃ f, failure = .fault (.execution (.runtime f)) := by
  have hrun : runLine .endless line = (Step.line line).run .endless := rfl
  rw [hrun, Step.run_of_room_none rfl] at hfails
  cases hentry : entryOf line with
  | error failure' =>
    obtain ⟨ds, rfl⟩ := entryOf_eq_error hentry
    rw [Step.outcome, Step.entry, hentry] at hfails
    exact .inl ⟨ds, (Except.error.inj hfails).symm⟩
  | ok entry =>
    rw [Step.outcome, Step.entry, hentry] at hfails
    exact .inr (Entry.outcome_eq_error ((entryOf_keeps line).2 entry hentry) hfails)

/-! ## A line by itself -/

namespace Prompt

/-- How the result of a line is shown: the value of an expression, with a line feed. -/
def echo : Attempt RunFault (Option Value) → List UInt8
  | .ok (some value) => Text.utf8 (value.text ++ "\n")
  | _ => []

/-- What is shown for a line if everything is taken. -/
def shown (view : Option View) (line : String) : List UInt8 :=
  match view with
  | none => (runLine .endless line).bytes ++ echo (runLine .endless line).result
  | some view =>
    match view.text line with
    | .ok text => Text.utf8 text
    | .error _ => []

/-- What is reported on a line if everything is taken. -/
def reported (view : Option View) (line : String) : String :=
  match view with
  | none => (runLine .endless line).result.report
  | some view => (view.text line).report

end Prompt

section RoomNone

variable {sink : Sink} (hroom : sink.room = none)
include hroom

/-- Where nothing is refused, a line does the same on every sink. -/
theorem runLine_of_room_none (line : String) :
    runLine sink line =
      ⟨(runLine .endless line).bytes, sink, (runLine .endless line).result⟩ := by
  have hsink : runLine sink line = ⟨(Step.line line).printed, sink, (Step.line line).outcome⟩ :=
    Step.run_of_room_none hroom (.line line)
  have hendless : runLine .endless line =
      ⟨(Step.line line).printed, .endless, (Step.line line).outcome⟩ :=
    Step.run_of_room_none rfl (.line line)
  rw [hsink, hendless]

/-- The answer to a line is the one to this line by itself, and the session goes on. -/
theorem answer_of_room_none (view : Option View) (line : String) :
    answer view sink line =
      ⟨Prompt.shown view line, sink, ⟨Prompt.reported view line, false⟩⟩ := by
  unfold answer Prompt.shown Prompt.reported
  cases view with
  | none =>
    simp only
    rw [runLine_of_room_none hroom, Written.andThen]
    cases (runLine .endless line).result with
    | error failure => rfl
    | ok value =>
      cases value with
      | none => rfl
      | some value =>
        simp only [Sink.writeText_of_room_none hroom]
        rfl
  | some view =>
    simp only
    cases view.text line with
    | error failure => rfl
    | ok text =>
      simp only [Sink.writeText_of_room_none hroom]
      rfl

/-! ## A session -/

/-- A session over some texts and further lines is a session over the further lines, with the
answers to the texts in front. -/
theorem runPrompt_append (view : Option View) (texts : List String) (lines : List (List UInt8)) :
    runPrompt view sink (texts.map Text.utf8 ++ lines) =
      (runPrompt view sink lines).after
        (texts.flatMap fun text => Text.utf8 promptMark ++ Prompt.shown view text)
        (String.join (texts.map (Prompt.reported view))) := by
  induction texts with
  | nil => simp [Outcome.after]
  | cons text texts ih =>
    rw [List.map_cons, List.cons_append, runPrompt]
    simp only [Sink.writeText_of_room_none hroom, Text.ofUtf8?_utf8, answer_of_room_none hroom, ih]
    simp [Outcome.after, String.append_assoc]

/-- At the end of the input the mark stands once more. -/
theorem runPrompt_nil (view : Option View) :
    runPrompt view sink [] = ⟨0, Text.utf8 promptMark, ""⟩ := by
  rw [runPrompt, Sink.writeText_of_room_none hroom]

/-- So it does in front of a line that is no text, which ends the session. -/
theorem runPrompt_of_not_text {line : List UInt8} (hline : ∀ text, line ≠ Text.utf8 text)
    (view : Option View) (lines : List (List UInt8)) :
    runPrompt view sink (line :: lines) =
      ⟨1, Text.utf8 promptMark, "Error: stream did not contain valid UTF-8\n"⟩ := by
  rw [runPrompt, Sink.writeText_of_room_none hroom, Text.ofUtf8?_eq_none_iff.2 hline]
  rfl

end RoomNone

/-! ## The lines that are read -/

/-- The lines of the input are these texts and the lines that are left unread, from the first one
on that is no text. -/
structure Prompt.Reads (input : List UInt8) (texts : List String) (unread : List (List UInt8)) :
    Prop where
  lines : Text.CutInLines input (texts.map Text.utf8 ++ unread)
  ends : ∀ line ∈ unread.head?, ∀ text, line ≠ Text.utf8 text

/-- Every input is read in one way or the other. -/
theorem Prompt.exists_reads (input : List UInt8) : ∃ texts unread, Reads input texts unread := by
  have htexts : ∀ lines : List (List UInt8), ∃ (texts : List String) (unread : List (List UInt8)),
      lines = texts.map Text.utf8 ++ unread ∧
        ∀ line ∈ unread.head?, ∀ text, line ≠ Text.utf8 text := by
    intro lines
    induction lines with
    | nil => exact ⟨[], [], rfl, by simp⟩
    | cons line lines ih =>
      by_cases htext : ∃ text, line = Text.utf8 text
      · obtain ⟨text, rfl⟩ := htext
        obtain ⟨texts, unread, rfl, hends⟩ := ih
        exact ⟨text :: texts, unread, rfl, hends⟩
      · refine ⟨[], line :: lines, rfl, ?_⟩
        simpa using htext
  obtain ⟨texts, unread, hlines, hends⟩ := htexts (Text.splitLines input)
  exact ⟨texts, unread, Text.splitLines_eq_iff.1 hlines, hends⟩

/-- The session goes on behind whatever whole lines stand in front. -/
theorem Prompt.Reads.behind {input front : List UInt8} {texts others : List String}
    {unread : List (List UInt8)} (h : Prompt.Reads input others unread)
    (hfront : Text.CutInLines front (texts.map Text.utf8))
    (hwhole : ∀ text ∈ texts, 10 ∈ Text.utf8 text) :
    Prompt.Reads (front ++ input) (texts ++ others) unread := by
  refine ⟨?_, h.ends⟩
  rw [List.map_append, List.append_assoc]
  apply hfront.append _ h.lines
  intro line hline
  obtain ⟨text, htext, rfl⟩ := List.mem_map.1 hline
  exact hwhole text htext

/-- Where nothing is refused, what comes of a session is said by what is read. -/
theorem runPrompt_of_reads {sink : Sink} (hroom : sink.room = none) (view : Option View)
    {input : List UInt8} {texts : List String} {unread : List (List UInt8)}
    (h : Prompt.Reads input texts unread) :
    runPrompt view sink (Text.splitLines input) =
      ⟨if unread = [] then 0 else 1,
        (texts.flatMap fun text => Text.utf8 promptMark ++ Prompt.shown view text) ++
          Text.utf8 promptMark,
        String.join (texts.map (Prompt.reported view)) ++
          if unread = [] then "" else "Error: stream did not contain valid UTF-8\n"⟩ := by
  rw [Text.splitLines_eq_iff.2 h.lines, runPrompt_append hroom]
  by_cases hall : unread = []
  · rw [if_pos hall, if_pos hall, hall, runPrompt_nil hroom]
    rfl
  · obtain ⟨line, lines, rfl⟩ := List.exists_cons_of_ne_nil hall
    rw [if_neg hall, if_neg hall, runPrompt_of_not_text hroom (h.ends line rfl)]
    rfl

/-- **A prompt session answers line by line.** The input is cut into lines, and there are texts up
to the first line that is no text. Each text is answered behind a mark with what it writes on an
interpreter of its own, and with its value if it is an expression; the faults of those that fail are
reported. Behind them the mark stands once more, and the session ends with success if the whole
input is read, and else with a report on the line that is no text. The fault of a line is that it
does not compile or that an operation fails; it changes nothing for the input behind the line. -/
theorem runCommand_prompt (parse : List String → Invocation) (files : Files) (input : List UInt8)
    (sink : Sink) (args : List String) (hroom : sink.room = none)
    (hargs : parse args = .prompt none) :
    let shown := fun text => Text.utf8 "> " ++
      ((runLine .endless text).bytes ++ Prompt.echo (runLine .endless text).result)
    let reported := fun text => (runLine .endless text).result.report
    (∃ texts unread, Prompt.Reads input texts unread) ∧
    (∀ texts unread, Prompt.Reads input texts unread →
      runCommandWith parse files input sink args =
        ⟨if unread = [] then 0 else 1, texts.flatMap shown ++ Text.utf8 "> ",
          String.join (texts.map reported) ++
            if unread = [] then "" else "Error: stream did not contain valid UTF-8\n"⟩) ∧
    (∀ text failure, (runLine .endless text).result = .error failure →
      (∃ ds, failure = .fault (.compile ds) ∧ reported text = Diagnostic.renderAll ds ++ "\n") ∨
      ∃ f, failure = .fault (.execution (.runtime f)) ∧ reported text = f.render ++ "\n") ∧
    ∀ (front : List UInt8) (texts : List String),
      Text.CutInLines front (texts.map Text.utf8) → (∀ text ∈ texts, 10 ∈ Text.utf8 text) →
      runCommandWith parse files (front ++ input) sink args =
        (runCommandWith parse files input sink args).after (texts.flatMap shown)
          (String.join (texts.map reported)) := by
  intro shown reported
  have hcommand : ∀ input, runCommandWith parse files input sink args =
      runPrompt none sink (Text.splitLines input) := by
    intro input
    rw [runCommandWith, hargs, Invocation.run]
  refine ⟨Prompt.exists_reads input, ?_, ?_, ?_⟩
  · intro texts unread hreads
    rw [hcommand]
    exact runPrompt_of_reads hroom none hreads
  · intro text failure hfails
    have hreported : reported text = failure.report := by
      simp only [reported, hfails, Attempt.report]
    rcases runLine_eq_error hfails with ⟨ds, rfl⟩ | ⟨f, rfl⟩
    · exact .inl ⟨ds, rfl, hreported⟩
    · exact .inr ⟨f, rfl, hreported⟩
  · intro front texts hfront hwhole
    obtain ⟨others, unread, hreads⟩ := Prompt.exists_reads input
    have hlines : Text.splitLines (front ++ input) =
        texts.map Text.utf8 ++ Text.splitLines input := by
      rw [Text.splitLines_eq_iff.2 (hreads.behind hfront hwhole).lines,
        Text.splitLines_eq_iff.2 hreads.lines, List.map_append, List.append_assoc]
    rw [hcommand, hcommand, hlines]
    exact runPrompt_append hroom none texts _

/-- A session in which a line fails, the next one is an expression, and the third one is no text,
so that the last one is not read. -/
theorem runCommand_prompt_not_text :
    let input := Text.utf8 "-nil\nnil\n" ++ [255, 10] ++ Text.utf8 "nil"
    runCommand (fun _ => .error .notFound) input .endless [] =
      ⟨1, Text.utf8 "> > nil\n> ",
        "Error: Operand must be a number.\n\n\t1 | -\n" ++
          "Error: stream did not contain valid UTF-8\n"⟩ := by
  intro input
  let minus : Token := ⟨.symbol .minus, "-", 1⟩
  have hsign : Cut (.symbol .minus) "-".toList "nil\n".toList := .lone rfl
  have hword : Cut .word "nil".toList "\n".toList :=
    .word rfl (List.all_eq_true.1 rfl) (by rintro x ⟨⟩; rfl)
  have hblank : Cut .gap "\n".toList [] := .blank rfl
  have hscans : Scans 1 ("nil".toList ++ "\n".toList) _ :=
    .piece hword rfl (.piece hblank rfl (.done _))
  have hscans' : Scans 1 ("-".toList ++ "nil\n".toList) _ := .piece hsign rfl hscans
  have hscan : Token.scan "nil\n" = .ok ([⟨.keyword .nil_, "nil", 1⟩] ++ [.endMarker 2]) :=
    Token.scan_of_scans (show Scans 1 "nil\n".toList _ from hscans)
  have hscan' : Token.scan "-nil\n" = .ok ([minus, ⟨.keyword .nil_, "nil", 1⟩] ++ [.endMarker 2]) :=
    Token.scan_of_scans (show Scans 1 "-nil\n".toList _ from hscans')
  have hnil : (Expr.literal .nil).DerivesFrom [⟨.keyword .nil_, "nil", 1⟩] :=
    ⟨.literal _, by decide, .literal rfl⟩
  have hminus : (Expr.unary minus (.literal .nil)).DerivesFrom
      [minus, ⟨.keyword .nil_, "nil", 1⟩] :=
    ⟨.unary (.inl rfl) (.literal _) trivial, by decide, .unary (.literal rfl)⟩
  have hline := isExpression_of_scan hscan hnil
  have hline' := isExpression_of_scan hscan' hminus
  have hreads : Prompt.Reads input ["-nil\n", "nil\n"] [[255, 10], Text.utf8 "nil"] := by
    constructor
    case lines => exact Text.splitLines_eq_iff.1 (by decide)
    case ends =>
      rintro line ⟨⟩
      exact Text.ofUtf8?_eq_none_iff.1 (by decide)
  rw [runCommand, (runCommand_prompt Invocation.ofArgs (fun _ => .error .notFound) input .endless []
    rfl rfl).2.1 _ _ hreads]
  simp only [List.flatMap_cons, List.map_cons, hline.runLine_eq, hline'.runLine_eq]
  decide

end Lox
