/-
A script, run and shown.

A run scans the script, reads the program and executes it; a view of the tokens stops behind the
first of these stages, and a view of the trees behind the second one. A fault of a stage is reported
by everything that gets as far as this stage, and in the same words, since all of them render the
same failure. So a view fails only where the run does not even begin to execute.

On a sink that takes nothing a run is the one on a sink without a limit, cut off in front of its
first byte. Whether that changes anything depends on whether there is a first byte, which is to say
on whether some statement prints.

How the arguments are read and where the files are is left open: the results hold for every way to
read arguments that finds the script in them, and for all files among which the script is.
-/
import Lox.Command
import Lox.Proofs.Command.Files
import Lox.Proofs.Output.Halves
import Lox.Proofs.Text.Lines

set_option autoImplicit false

namespace Lox

/-! ## Status and report -/

namespace Attempt

variable {α : Type}

/-- The exit status that tells of an attempt. -/
def status : Attempt RunFault α → Nat
  | .ok _ => 0
  | .error failure => failure.status

/-- What is reported of an attempt. -/
def report : Attempt RunFault α → String
  | .ok _ => ""
  | .error failure => failure.report

/-- The exit status and the report of an attempt to run a source, where output is not refused. -/
inductive Exits : Attempt RunFault α → Nat → String → Prop
  | success (a : α) : Exits (.ok a) 0 ""
  | compile (ds : List Diagnostic) :
      Exits (.error (.fault (.compile ds))) 65 (Diagnostic.renderAll ds ++ "\n")
  | runtime (f : RuntimeFault) :
      Exits (.error (.fault (.execution (.runtime f)))) 70 (f.render ++ "\n")

section Exits

variable {attempt : Attempt RunFault α} {status status' : Nat} {report report' : String}

/-- Output that is refused has a status of its own. -/
theorem Exits.status_ne (h : Exits attempt status report) : status ≠ 74 := by
  cases h <;> simp

/-- An attempt has one status and one report. -/
theorem Exits.unique (h : Exits attempt status report) (h' : Exits attempt status' report') :
    status = status' ∧ report = report' := by
  cases h <;> cases h' <;> exact ⟨rfl, rfl⟩

end Exits

end Attempt

/-- A run leaves its output behind, and the status and the report of its result. -/
theorem processScript_run (sink : Sink) (source : String) :
    processScript sink none source =
      ⟨(runSource sink source).result.status, (runSource sink source).bytes,
        (runSource sink source).result.report⟩ := by
  unfold processScript
  simp only
  cases (runSource sink source).result <;> rfl

/-! ## Views -/

section Views

variable {sink : Sink} {view : View} {source : String}

/-- A view is shown as it is. -/
theorem processScript_view_of_ok (hroom : sink.room = none) {text : String}
    (htext : view.text source = .ok text) :
    processScript sink (some view) source = ⟨0, Text.utf8 text, ""⟩ := by
  unfold processScript
  simp only [htext, Sink.writeText_of_room_none hroom]

/-- Of a source that has no such view nothing is shown. -/
theorem processScript_view_of_error {failure : Failure RunFault}
    (htext : view.text source = .error failure) (sink : Sink) :
    processScript sink (some view) source = ⟨failure.status, [], failure.report⟩ := by
  unfold processScript
  simp only [htext]

/-- The view of the trees has a line for every statement. -/
theorem processScript_trees_of_ok (hroom : sink.room = none) {program : Program}
    (hprogram : programOf source = .ok program) :
    processScript sink (some .trees) source =
      ⟨0, program.flatMap fun s => Text.utf8 (s.render ++ "\n"), ""⟩ := by
  have htext : View.trees.text source = .ok program.render := by
    rw [View.text, hprogram]
    rfl
  rw [processScript_view_of_ok hroom htext, Program.render, Text.utf8_join, List.flatMap_map]

/-- Of a source that is no program, a view of the trees is what a run is. -/
theorem processScript_trees_of_error {failure : Failure RunFault}
    (hprogram : programOf source = .error failure) (sink : Sink) :
    processScript sink (some .trees) source = processScript sink none source := by
  have htext : View.trees.text source = .error failure := by
    rw [View.text, hprogram]
    rfl
  rw [processScript_view_of_error htext, processScript_run, runSource_of_error hprogram]
  rfl

/-- The view of the tokens has a line for every token. -/
theorem processScript_tokens_of_ok (hroom : sink.room = none) {tokens : List Token}
    (hscan : Token.scan source = .ok tokens) :
    processScript sink (some .tokens) source =
      ⟨0, tokens.flatMap fun t => Text.utf8 (t.listing ++ "\n"), ""⟩ := by
  have htext : View.tokens.text source = .ok (Token.listingAll tokens) := by
    rw [View.text, tokensOf, hscan]
    rfl
  rw [processScript_view_of_ok hroom htext, Token.listingAll, Text.utf8_join, List.flatMap_map]

/-- Of a source that cannot be scanned, a view of the tokens is what a run is. -/
theorem processScript_tokens_of_fault {d : Diagnostic}
    (hscan : Token.scan source = .error (.fault d)) (sink : Sink) :
    processScript sink (some .tokens) source = processScript sink none source := by
  have htext : View.tokens.text source = .error (.fault (.compile [d])) := by
    rw [View.text, tokensOf, hscan]
    rfl
  rw [processScript_view_of_error htext, processScript_run,
    runSource_of_error (programOf_of_scan_fault hscan)]
  rfl

end Views

/-! ## A sink that takes nothing -/

/-- Where room is limited, what is written for a source is cut off. -/
theorem runSource_within (room : Nat) (refusal : Refusal) (source : String) :
    runSource ⟨some room, refusal⟩ source =
      (runSource .endless source).within room refusal
        (.error (.fault (.execution (.output refusal)))) := by
  unfold runSource
  cases programOf source with
  | error failure => rw [Written.within_of_nil rfl]
  | ok program =>
    simp only [runProgram]
    rw [Program.execute_within, Written.within_map]
    rfl

/-- A statement of the program prints, and where nothing is refused everything up to this statement
succeeds. -/
def Program.Prints (program : Program) : Prop :=
  ∃ front e back, program = front ++ Stmt.print e :: back ∧
    (execute .endless (front ++ [.print e])).result = .ok ()

section Prints

variable {s : Stmt}

/-- A statement that succeeds writes something if it prints: a line feed at least. -/
theorem Stmt.printed_ne_nil_iff (hok : s.outcome = .ok ()) :
    s.printed ≠ [] ↔ ∃ e, s = print e := by
  cases s with
  | expression e => simp [printed]
  | print e =>
    refine iff_of_true ?_ ⟨e, rfl⟩
    rw [printed]
    cases heval : e.eval with
    | ok value => simp [Text.utf8]
    | error failure =>
      rw [outcome, expr, heval] at hok
      cases failure <;> cases hok

/-- Behind a statement that fails nothing is printed. -/
theorem Program.not_prints_cons {failure : Failure ExecutionFault}
    (hfails : s.outcome = .error failure) (program : Program) : ¬ Prints (s :: program) := by
  rintro ⟨front, e, back, hprogram, hfront⟩
  rw [execute_of_room_none rfl] at hfront
  -- whatever the front is, it begins with the statement
  have hfirst : ∃ rest, front ++ [Stmt.print e] = s :: rest := by
    cases front with
    | nil => exact ⟨[], by rw [(List.cons.inj hprogram).1]; rfl⟩
    | cons t front => exact ⟨front ++ [.print e], by rw [(List.cons.inj hprogram).1]; rfl⟩
  obtain ⟨rest, hrest⟩ := hfirst
  rw [hrest, outcome_cons_of_error hfails] at hfront
  cases hfront

theorem Program.prints_cons_iff (hok : s.outcome = .ok ()) (program : Program) :
    Prints (s :: program) ↔ (∃ e, s = .print e) ∨ Prints program := by
  have hexecute : ∀ p : Program, execute .endless p = ⟨p.printed, .endless, p.outcome⟩ :=
    execute_of_room_none rfl
  unfold Prints
  simp only [hexecute]
  constructor
  · rintro ⟨front, e, back, hprogram, hfront⟩
    cases front with
    | nil => exact .inl ⟨e, (List.cons.inj hprogram).1⟩
    | cons t front =>
      obtain ⟨rfl, rfl⟩ := List.cons.inj hprogram
      rw [List.cons_append, outcome_cons_of_ok hok] at hfront
      exact .inr ⟨front, e, back, rfl, hfront⟩
  · rintro (⟨e, rfl⟩ | ⟨front, e, back, rfl, hfront⟩)
    · refine ⟨[], e, program, rfl, ?_⟩
      rw [List.nil_append, outcome_cons_of_ok hok]
      rfl
    · refine ⟨s :: front, e, back, rfl, ?_⟩
      rw [List.cons_append, outcome_cons_of_ok hok, hfront]

/-- What is written where nothing is refused tells whether anything is printed. -/
theorem Program.printed_ne_nil_iff (program : Program) : program.printed ≠ [] ↔ program.Prints := by
  induction program with
  | nil => simp [printed, unfaulted, Prints]
  | cons s program ih =>
    cases hs : s.outcome with
    | error failure =>
      rw [printed_cons_of_error hs]
      exact iff_of_false (by simp) (not_prints_cons hs program)
    | ok done =>
      rw [printed_cons_of_ok hs, prints_cons_iff hs, ← ih, ← Stmt.printed_ne_nil_iff hs, ne_eq,
        List.append_eq_nil_iff, Decidable.not_and_iff_not_or_not]

end Prints

/-- A source of which something is written is a program that prints. -/
theorem runSource_bytes_ne_nil_iff (source : String) :
    (runSource .endless source).bytes ≠ [] ↔
      ∃ program, programOf source = .ok program ∧ program.Prints := by
  cases hprogram : programOf source with
  | error failure => simp [runSource_of_error hprogram]
  | ok program =>
    rw [runSource_of_room_none rfl hprogram, Program.printed_ne_nil_iff]
    simp

/-- On a sink that takes nothing, a source of which something is written is refused its output, and
any other source is run as on a sink without a limit. -/
theorem processScript_run_full (refusal : Refusal) (source : String) :
    processScript ⟨some 0, refusal⟩ none source =
      if (runSource .endless source).bytes = [] then processScript .endless none source
      else ⟨74, [], (ExecutionFault.output refusal).render ++ "\n"⟩ := by
  rw [processScript_run, processScript_run, runSource_within]
  by_cases hnil : (runSource .endless source).bytes = []
  · rw [if_pos hnil, Written.within_of_nil hnil, hnil]
  · rw [if_neg hnil, Written.within_of_lt (List.length_pos_iff.2 hnil)]
    rfl

/-! ## The command -/

/-- A view of a source agrees with a run of it: it fails in this case, with the report of the run
and without showing anything, and it shows such lines in every other case. -/
structure View.Agrees (run shown : Outcome) (fails : Prop) (Lines : List UInt8 → Prop) : Prop where
  status : shown.status = 65 ↔ fails
  report : fails → shown.stderr = run.stderr ∧ shown.stdout = []
  lines : ¬ fails → ∃ bytes, Lines bytes ∧ shown = ⟨0, bytes, ""⟩

/-- A view that fails as the run does agrees with it. -/
theorem View.Agrees.of_fails {run : Outcome} {fails : Prop} {Lines : List UInt8 → Prop}
    (hfails : fails) (hstatus : run.status = 65) (hsilent : run.stdout = []) :
    Agrees run run fails Lines where
  status := iff_of_true hstatus hfails
  report _ := ⟨rfl, hsilent⟩
  lines hshows := absurd hfails hshows

/-- So does one that is shown. -/
theorem View.Agrees.of_lines {run : Outcome} {fails : Prop} {Lines : List UInt8 → Prop}
    {bytes : List UInt8} (hshows : ¬ fails) (hlines : Lines bytes) :
    Agrees run ⟨0, bytes, ""⟩ fails Lines where
  status := iff_of_false (by simp) hshows
  report hfails := absurd hfails hshows
  lines _ := ⟨bytes, hlines, rfl⟩

section RoomNone

variable {sink : Sink} (hroom : sink.room = none) (source : String)
include hroom

/-- Where nothing is refused, a run is the same on every sink. -/
theorem processScript_run_of_room_none :
    processScript sink none source = processScript .endless none source := by
  rw [processScript_run, processScript_run]
  cases hprogram : programOf source with
  | error failure => rw [runSource_of_error hprogram, runSource_of_error hprogram]
  | ok program =>
    rw [runSource_of_room_none hroom hprogram, runSource_of_room_none rfl hprogram]

/-- The status and the report of a run tell whether the source was executed to its end, has
diagnostics or came to a fault of evaluation. -/
theorem processScript_exits :
    (runSource .endless source).result.Exits (processScript sink none source).status
      (processScript sink none source).stderr := by
  have hendless : Sink.endless.room = none := rfl
  rw [processScript_run_of_room_none hroom, processScript_run]
  rcases runSource_cases hendless source with ⟨ds, -, hrun⟩ | ⟨_, -, -, hrun⟩ | ⟨_, f, -, -, hrun⟩
  · rw [hrun]
    exact .compile ds
  · rw [hrun]
    exact .success ()
  · rw [hrun]
    exact .runtime f

/-- The status of a run tells whether the source is a program. -/
theorem processScript_status_eq_iff :
    (processScript sink none source).status = 65 ↔
      ∃ failure, programOf source = .error failure := by
  have hendless : Sink.endless.room = none := rfl
  rw [processScript_run_of_room_none hroom, processScript_run]
  rcases runSource_cases hendless source with ⟨ds, hprogram, hrun⟩ | ⟨_, hprogram, -, hrun⟩ |
    ⟨_, f, hprogram, -, hrun⟩
  · simp [hrun, hprogram, Attempt.status, Failure.status]
  · simp [hrun, hprogram, Attempt.status]
  · simp [hrun, hprogram, Attempt.status, Failure.status]

/-- The trees are shown unless the source does not compile. -/
theorem processScript_trees_agrees :
    View.Agrees (processScript sink none source) (processScript sink (some .trees) source)
      ((processScript sink none source).status = 65)
      (fun bytes => ∃ program, programOf source = .ok program ∧
        bytes = program.flatMap fun s => Text.utf8 (s.render ++ "\n")) := by
  have hstatus := processScript_status_eq_iff hroom source
  cases hprogram : programOf source with
  | error failure =>
    have hfails := hstatus.2 ⟨failure, hprogram⟩
    rw [processScript_trees_of_error hprogram]
    apply View.Agrees.of_fails hfails hfails
    rw [processScript_run, runSource_of_error hprogram]
  | ok program =>
    rw [processScript_trees_of_ok hroom hprogram]
    apply View.Agrees.of_lines _ ⟨program, rfl, rfl⟩
    simp [hstatus, hprogram]

/-- The tokens are shown unless the source cannot be scanned. -/
theorem processScript_tokens_agrees :
    View.Agrees (processScript sink none source) (processScript sink (some .tokens) source)
      (∃ d, Token.scan source = .error (.fault d))
      (fun bytes => ∃ tokens, Token.scan source = .ok tokens ∧
        bytes = tokens.flatMap fun t => Text.utf8 (t.listing ++ "\n")) := by
  rcases (Token.scan_keeps source).result_or_fault with ⟨tokens, hscan⟩ | ⟨d, hscan⟩
  · rw [processScript_tokens_of_ok hroom hscan]
    apply View.Agrees.of_lines _ ⟨tokens, hscan, rfl⟩
    simp [hscan]
  · have hprogram := programOf_of_scan_fault hscan
    rw [processScript_tokens_of_fault hscan]
    apply View.Agrees.of_fails ⟨d, hscan⟩
    · exact (processScript_status_eq_iff hroom source).2 ⟨_, hprogram⟩
    · rw [processScript_run, runSource_of_error hprogram]

end RoomNone

/-- **A script is run and shown alike.** A run ends with success, with the diagnostics of the source
or with a fault of evaluation, and so say its status and its report. The trees are shown exactly
where the run does not end with diagnostics, and the tokens exactly where the source can be scanned;
where they are not, there is the report of the run and nothing else. On a sink that takes nothing a
run is refused its output exactly where a statement prints, and is the same otherwise. -/
theorem runCommand_script (parse : List String → Invocation) (files : Files) (input : List UInt8)
    (sink : Sink) (path source : String) (args : Option View → List String)
    (hroom : sink.room = none) (hfile : files path = .ok (Text.utf8 source))
    (hargs : ∀ view, parse (args view) = .script path view) :
    let command := fun sink view => runCommandWith parse files input sink (args view)
    let run := command sink none
    (run.stdout = (runSource .endless source).bytes ∧
      (runSource .endless source).result.Exits run.status run.stderr) ∧
    View.Agrees run (command sink (some .trees)) (run.status = 65)
      (fun bytes => ∃ program, programOf source = .ok program ∧
        bytes = program.flatMap fun s => Text.utf8 (s.render ++ "\n")) ∧
    View.Agrees run (command sink (some .tokens)) (∃ d, Token.scan source = .error (.fault d))
      (fun bytes => ∃ tokens, Token.scan source = .ok tokens ∧
        bytes = tokens.flatMap fun t => Text.utf8 (t.listing ++ "\n")) ∧
    ∀ refusal,
      ((command ⟨some 0, refusal⟩ none).status = 74 ↔
        ∃ program, programOf source = .ok program ∧ program.Prints) ∧
      ((command ⟨some 0, refusal⟩ none).status ≠ 74 → command ⟨some 0, refusal⟩ none = run) := by
  intro command run
  have htext : files.text path = .ok source := by
    simp only [Files.text, hfile, bind, Except.bind, Text.ofUtf8?_utf8]
    rfl
  have hcommand : ∀ sink view, command sink view = processScript sink view source := by
    intro sink view
    simp only [command, runCommandWith, hargs, Invocation.run, runScript, htext]
  have hexits := processScript_exits hroom source
  simp only [run, hcommand]
  refine ⟨⟨?_, hexits⟩, processScript_trees_agrees hroom source,
    processScript_tokens_agrees hroom source, fun refusal => ?_⟩
  · rw [processScript_run_of_room_none hroom, processScript_run]
  · have hstatus := hexits.status_ne
    rw [processScript_run_full, ← runSource_bytes_ne_nil_iff,
      ← processScript_run_of_room_none hroom]
    by_cases hnil : (runSource .endless source).bytes = []
    · rw [if_pos hnil]
      exact ⟨iff_of_false hstatus (not_not_intro hnil), fun _ => rfl⟩
    · rw [if_neg hnil]
      exact ⟨iff_of_true rfl hnil, fun hne => absurd rfl hne⟩

/-- A script that prints and then fails: its trees are shown all the same, and on a full device it
fails for its output. -/
theorem runCommand_script_failing :
    let source := "print nil;-nil;"
    let here : Place := ⟨[("script.lox", .file (Text.utf8 source))], []⟩
    let args : Option View → List String := fun
      | none => ["--", "script.lox"]
      | some .trees => ["--dump", "ast", "--", "script.lox"]
      | some .tokens => ["--dump=tokens", "--", "script.lox"]
    let command := fun sink view => runCommand here.read [] sink (args view)
    (command .endless none).status = 70 ∧
      command .endless (some .trees) = ⟨0, Text.utf8 "(print nil)\n(; (- nil))\n", ""⟩ ∧
      (command .full none).status = 74 := by
  intro source here args command
  let minus : Token := ⟨.symbol .minus, "-", 1⟩
  have hprint : Cut .word "print".toList " nil;-nil;".toList :=
    .word rfl (List.all_eq_true.1 rfl) (by rintro x ⟨⟩; rfl)
  have hblank : Cut .gap " ".toList "nil;-nil;".toList := .blank rfl
  have hword : ∀ rest, Cut .word "nil".toList (';' :: rest) := fun rest =>
    .word rfl (List.all_eq_true.1 rfl) (by rintro x ⟨⟩; rfl)
  have hsemicolon : ∀ rest, Cut (.symbol .semicolon) [';'] rest := fun rest => .lone rfl
  have hsign : Cut (.symbol .minus) "-".toList "nil;".toList := .lone rfl
  have hscans : Scans 1 ("print".toList ++ " nil;-nil;".toList) _ :=
    .piece hprint rfl (.piece hblank rfl (.piece (hword _) rfl (.piece (hsemicolon _) rfl
      (.piece hsign rfl (.piece (hword _) rfl (.piece (hsemicolon _) rfl (.done _)))))))
  have hscan : Token.scan source = .ok ([⟨.keyword .print_, "print", 1⟩,
      ⟨.keyword .nil_, "nil", 1⟩, ⟨.symbol .semicolon, ";", 1⟩] ++
      ([minus, ⟨.keyword .nil_, "nil", 1⟩, ⟨.symbol .semicolon, ";", 1⟩] ++ []) ++
      [.endMarker 1]) :=
    Token.scan_of_scans (show Scans 1 "print nil;-nil;".toList _ from hscans)
  have hnil : (Expr.literal .nil).DerivesFrom [⟨.keyword .nil_, "nil", 1⟩] :=
    ⟨.literal _, by decide, .literal rfl⟩
  have hminus : (Expr.unary minus (.literal .nil)).DerivesFrom
      [minus, ⟨.keyword .nil_, "nil", 1⟩] :=
    ⟨.unary (.inl rfl) (.literal _) trivial, by decide, .unary (.literal rfl)⟩
  have hprogram : programOf source =
      .ok [.print (.literal .nil), .expression (.unary minus (.literal .nil))] := by
    rw [programOf_of_scan hscan (by decide) rfl, Attempt.mapError_eq_ok_iff,
      Program.readAll_eq_ok_iff]
    exact .cons (.print rfl hnil rfl) (.cons (.expression hminus rfl) .nil)
  have hargs : ∀ view, Invocation.ofArgs (args view) = .script "script.lox" view := by
    intro view
    rcases view with _ | _ | _ <;> rfl
  have hname : IsName "script.lox" := by constructor <;> decide
  have hfile : here.read "script.lox" = .ok (Text.utf8 source) := Place.read_entry hname rfl
  obtain ⟨⟨-, hexits⟩, htrees, -, hfull⟩ := runCommand_script Invocation.ofArgs here.read []
    .endless "script.lox" source args rfl hfile hargs
  rw [runSource_of_room_none rfl hprogram] at hexits
  have hstatus : (command .endless none).status = 70 :=
    (hexits.unique (.runtime ⟨.notNumber, 1, "-"⟩)).1
  have hcompiles : ¬ (command .endless none).status = 65 := by
    rw [hstatus]
    decide
  obtain ⟨bytes, ⟨program, hread, rfl⟩, hshown⟩ := htrees.lines hcompiles
  rw [hprogram] at hread
  obtain rfl := Except.ok.inj hread
  refine ⟨hstatus, hshown.trans (by decide), (hfull .deviceFull).1.2 ⟨_, hprogram, ?_⟩⟩
  exact ⟨[], .literal .nil, _, rfl, rfl⟩

end Lox
