/-
A line at the prompt and the sources it could be.

A line that is an expression is answered with a value whose text `print` would write if the line
stood behind it, with a semicolon on the next line since the line may end in a comment. The program
that prints is read from the same tokens, so it holds the very same tree, and its fault is the same
one. What is printed does not tell the value, though: a string of digits has the text of a number,
so the two ways agree up to what is shown. Without the semicolon the line is no program, and that is
all that is wrong with it. So the two ways to read a line exclude each other, and to try the one
before the other hides no program.

A line that is no expression is run as a source is.
-/
import Lox.Proofs.Output.Halves
import Lox.Proofs.Text.Lines

set_option autoImplicit false

namespace Lox

/-- The line is this expression. -/
def IsExpression (line : String) (e : Expr) : Prop :=
  ∃ tokens, Token.scan line = .ok tokens ∧ Expr.ofTokens tokens = .ok e

/-- The source that prints what the line is. The semicolon has a line of its own, where no comment
can reach it. -/
def printing (line : String) : String :=
  "print " ++ line ++ "\n" ++ ";"

/-! ## Reading the line -/

section Reading

variable {line : String} {e : Expr}

/-- The tokens of a line that is an expression. -/
theorem IsExpression.scan (h : IsExpression line e) :
    ∃ body, Token.scan line = .ok (body ++ [.endMarker (1 + line.toList.count '\n')]) ∧
      e.DerivesFrom body := by
  obtain ⟨tokens, hscan, he⟩ := h
  obtain ⟨body, rfl, hopen⟩ := Token.scan_body hscan
  rw [Expr.ofTokens_append hopen rfl ⟨_, rfl, rfl⟩, Attempt.mapError_eq_ok_iff] at he
  exact ⟨body, hscan, (Expr.readAll_eq_ok_iff body e).1 he⟩

/-- A line is the expression that its tokens derive. -/
theorem isExpression_of_scan {body : List Token} {stop : Nat}
    (hscan : Token.scan line = .ok (body ++ [.endMarker stop])) (he : e.DerivesFrom body) :
    IsExpression line e := by
  refine ⟨_, hscan, ?_⟩
  rw [Expr.ofTokens_append (he.written.isEnding_eq_false he.canonical) rfl ⟨_, rfl, rfl⟩,
    Attempt.mapError_eq_ok_iff]
  exact (Expr.readAll_eq_ok_iff body e).2 he

/-- What the line says once it is scanned. -/
theorem entryOf_of_scan {tokens : List Token} (hscan : Token.scan line = .ok tokens) :
    entryOf line =
      match Expr.ofTokens tokens with
      | .ok e => .ok (.expression e)
      | .error (.breach b) => .error (.breach b)
      | .error (.fault _) => ((Program.ofTokens tokens).reportAs .compile).map .program := by
  have htokens : tokensOf line = .ok tokens := by
    rw [tokensOf, hscan]
    rfl
  rw [entryOf, htokens]
  -- only a fault makes the line be read as statements
  simp only [bind, Except.bind]
  rcases Expr.ofTokens tokens with (d | b) | e
  · rcases Program.ofTokens tokens with (ds | b) | program <;> rfl
  · rfl
  · rfl

theorem IsExpression.entryOf_eq (h : IsExpression line e) :
    entryOf line = .ok (.expression e) := by
  obtain ⟨tokens, hscan, he⟩ := h
  rw [entryOf_of_scan hscan, he]

/-- A line that is no expression is read as a source. -/
theorem entryOf_of_not_isExpression (h : ∀ e, ¬ IsExpression line e) :
    entryOf line = (programOf line).map .program := by
  rcases (Token.scan_keeps line).result_or_fault with ⟨tokens, hscan⟩ | ⟨d, hscan⟩
  · obtain ⟨body, stop, rfl, -⟩ := Token.scan_terminated hscan
    have hterminated : Terminated (body ++ [.endMarker stop]) :=
      Terminated.append body ⟨_, rfl, rfl⟩
    have hprogram : programOf line =
        (Program.ofTokens (body ++ [.endMarker stop])).reportAs .compile := by
      rw [programOf, tokensOf, hscan]
      rfl
    rcases (Expr.ofTokens_keeps hterminated).1.result_or_fault with ⟨e, he⟩ | ⟨d, hd⟩
    · exact absurd ⟨_, hscan, he⟩ (h e)
    · rw [entryOf_of_scan hscan, hd, hprogram]
  · rw [entryOf, programOf, tokensOf, hscan]
    rfl

/-- Where a semicolon is missing at the end of the tokens, nothing else is wrong. -/
theorem Expr.DerivesFrom.readAll_program {body : List Token} (he : e.DerivesFrom body) :
    Program.readAll body = .error [⟨.expectedSemicolonAfterExpression, []⟩] := by
  obtain ⟨t, more, rfl, -⟩ := he.written.head he.canonical
  have hkind : ¬ t.kind = .keyword .print_ := fun h =>
    Stmt.not_derivesFrom_print ((t.kind_eq_keyword_iff _).1 h) he
  have hfits : e.Fits maxNesting 0 := ⟨he.canonical, he.canonical.bindsAt_zero, he.shallow⟩
  have hread := Expr.reader_exact.complete hfits he.written (stopsAt_nil 0)
  rw [List.append_nil] at hread
  have hstatement : Stmt.read (t :: more) =
      .error ⟨.expectedSemicolonAfterExpression, []⟩ := by
    -- the expression is read to its end, where a semicolon is asked for
    rw [Stmt.read, if_neg hkind, Stmt.readBody, hread]
    rfl
  rw [Program.readAll_of_read_error (List.cons_ne_nil _ _) hstatement, recover,
    Program.readAll_nil]
  rfl

/-- An expression without a semicolon is no program. -/
theorem IsExpression.programOf_eq (h : IsExpression line e) :
    programOf line = .error (.fault (.compile
      [⟨1 + line.toList.count '\n', "at end", "Expect ';' after expression."⟩])) := by
  obtain ⟨body, hscan, he⟩ := h.scan
  have hopen := he.written.isEnding_eq_false he.canonical
  rw [programOf_of_scan hscan hopen rfl, he.readAll_program]
  rfl

/-- Between `print` and a semicolon the tokens are the same, and so is the tree. -/
theorem IsExpression.programOf_printing (h : IsExpression line e) :
    programOf (printing line) = .ok [.print e] := by
  obtain ⟨body, hscan, he⟩ := h.scan
  obtain ⟨body', hbody', hbehind⟩ := (Token.scans_of_ok hscan).append_lineFeed rfl
  obtain rfl : body = body' := List.append_inj_left' hbody' rfl
  -- the pieces around the line; a comment at its end is cut off in front of the line feed
  have hprint : Cut .word "print".toList (' ' :: (line.toList ++ ['\n', ';'])) :=
    .word rfl (List.all_eq_true.1 rfl) (by rintro x ⟨⟩; rfl)
  have hblank : Cut .gap [' '] (line.toList ++ ['\n', ';']) := .blank rfl
  have hsemicolon : Cut (.symbol .semicolon) [';'] [] := .lone rfl
  have hscans : Scans 1 ("print".toList ++ ([' '] ++ (line.toList ++ ['\n', ';']))) _ :=
    .piece hprint rfl (.piece hblank rfl (hbehind (.piece hsemicolon rfl (.done _))))
  have hlist : (printing line).toList =
      "print".toList ++ ([' '] ++ (line.toList ++ ['\n', ';'])) := by
    rw [printing, String.toList_append, String.toList_append, String.toList_append]
    simp
  rw [← hlist] at hscans
  let first : Token := ⟨.keyword .print_, "print", 1⟩
  let last : Token := ⟨.symbol .semicolon, ";", 1 + line.toList.count '\n' + 1⟩
  have hstatement : (Stmt.print e).DerivesFrom (first :: body ++ [last]) := .print rfl he rfl
  have hderives : Program.DerivesFrom [.print e] (first :: body ++ [last]) := by
    rw [← List.append_nil (first :: body ++ [last])]
    exact .cons hstatement .nil
  have hwhole : Token.scan (printing line) =
      .ok (first :: body ++ [last] ++ [.endMarker (1 + line.toList.count '\n' + 1)]) := by
    rw [List.append_assoc]
    exact Token.scan_of_scans hscans
  rw [programOf_of_scan hwhole hderives.isEnding_eq_false rfl, Attempt.mapError_eq_ok_iff,
    Program.readAll_eq_ok_iff]
  exact hderives

end Reading

/-! ## Running the line -/

/-- What a prompt does with a line that is an expression, and what the sources do that it could be
part of. -/
structure AnsweredAs (sink : Sink) (line : String) (e : Expr) : Prop where
  /-- The program that prints holds the same tree. -/
  program : programOf (printing line) = .ok [.print e]
  silent : (runLine sink line).bytes = [] ∧ (runLine sink line).sink = sink
  /-- The answer is the value of the tree, and without one there is a fault. -/
  answer : ∀ value, (runLine sink line).result = .ok (some value) ↔ e.eval = .ok value
  total : (∃ value, (runLine sink line).result = .ok (some value)) ∨
    ∃ f, (runLine sink line).result = .error (.fault (.execution (.runtime f)))
  /-- What is printed is the text of the answer, which other values may share. -/
  prints : ∀ text, runSource sink (printing line) = ⟨Text.utf8 (text ++ "\n"), sink, .ok ()⟩ ↔
    ∃ value, value.text = text ∧ (runLine sink line).result = .ok (some value)
  /-- The fault is the same one, and nothing is printed with it. -/
  fails : ∀ f, (runLine sink line).result = .error (.fault (.execution (.runtime f))) ↔
    runSource sink (printing line) = ⟨[], sink, .error (.fault (.execution (.runtime f)))⟩
  /-- As a source the line misses a semicolon. -/
  unended : runSource sink line = ⟨[], sink, .error (.fault (.compile
    [⟨1 + line.toList.count '\n', "at end", "Expect ';' after expression."⟩]))⟩
  no_program : ∀ program, programOf line ≠ .ok program

section Running

variable {line : String} {sink : Sink} {e : Expr}

theorem IsExpression.runLine_eq (h : IsExpression line e) (sink : Sink) :
    runLine sink line =
      ⟨[], sink, (e.eval.reportAs (.execution ∘ .runtime)).map some⟩ := by
  rw [runLine, h.entryOf_eq]

/-- The answer is the value of the tree. -/
theorem IsExpression.result_eq_ok_iff (h : IsExpression line e) (sink : Sink) (value : Value) :
    (runLine sink line).result = .ok (some value) ↔ e.eval = .ok value := by
  rw [h.runLine_eq]
  rcases e.eval with (f | b) | found
  · exact iff_of_false (fun h => by cases h) fun h => by cases h
  · exact iff_of_false (fun h => by cases h) fun h => by cases h
  · have hresult : (Attempt.reportAs (RunFault.execution ∘ .runtime) (.ok found)).map some =
        .ok (some found) := rfl
    rw [hresult, Except.ok.injEq, Except.ok.injEq, Option.some.injEq]

/-- The fault is that of the tree. -/
theorem IsExpression.result_eq_fault_iff (h : IsExpression line e) (sink : Sink)
    (f : RuntimeFault) :
    (runLine sink line).result = .error (.fault (.execution (.runtime f))) ↔
      e.eval = .error (.fault f) := by
  rw [h.runLine_eq]
  constructor
  · intro hresult
    rcases heval : e.eval with (found | b) | value
    · rw [heval] at hresult
      cases hresult
      rfl
    · rw [heval] at hresult
      cases hresult
    · rw [heval] at hresult
      cases hresult
  · intro heval
    rw [heval]
    rfl

/-- The tree of a line has a value or a fault. -/
theorem IsExpression.eval_cases (h : IsExpression line e) :
    (∃ value, e.eval = .ok value) ∨ ∃ f, e.eval = .error (.fault f) := by
  obtain ⟨body, -, he⟩ := h.scan
  exact he.canonical.operated.eval_keeps.result_or_fault

section Print

variable {source : String} (hroom : sink.room = none) (hprogram : programOf source = .ok [.print e])
include hroom hprogram

/-- A single statement that prints writes the line of its value. -/
theorem runSource_print_of_ok {value : Value} (hvalue : e.eval = .ok value) :
    runSource sink source = ⟨Text.utf8 (value.text ++ "\n"), sink, .ok ()⟩ := by
  have houtcome : (Stmt.print e).outcome = .ok () := by
    rw [Stmt.outcome, Stmt.expr, hvalue]
    rfl
  have hprinted : (Stmt.print e).printed = Text.utf8 (value.text ++ "\n") := by
    rw [Stmt.printed, hvalue]
  have hnil : Program.printed [] = [] := rfl
  rw [runSource_of_room_none hroom hprogram, Program.printed_cons_of_ok houtcome,
    Program.outcome_cons_of_ok houtcome, hprinted, hnil, List.append_nil]
  rfl

/-- Without a value it writes nothing. -/
theorem runSource_print_of_fault {f : RuntimeFault} (hfault : e.eval = .error (.fault f)) :
    runSource sink source = ⟨[], sink, .error (.fault (.execution (.runtime f)))⟩ := by
  have houtcome : (Stmt.print e).outcome = .error (.fault (.runtime f)) := by
    rw [Stmt.outcome, Stmt.expr, hfault]
    rfl
  rw [runSource_of_room_none hroom hprogram, Program.printed_cons_of_error houtcome,
    Program.outcome_cons_of_error houtcome]
  rfl

end Print

theorem IsExpression.answeredAs (h : IsExpression line e) (hroom : sink.room = none) :
    AnsweredAs sink line e where
  program := h.programOf_printing
  silent := by
    rw [h.runLine_eq]
    exact ⟨rfl, rfl⟩
  answer := h.result_eq_ok_iff sink
  total := by
    simp only [h.result_eq_ok_iff, h.result_eq_fault_iff]
    exact h.eval_cases
  prints text := by
    simp only [h.result_eq_ok_iff]
    constructor
    · intro htext
      rcases h.eval_cases with ⟨value, hvalue⟩ | ⟨f, hfault⟩
      · rw [runSource_print_of_ok hroom h.programOf_printing hvalue] at htext
        have hline := Text.utf8_injective (Written.mk.inj htext).1
        exact ⟨value, (String.append_left_inj _).1 hline, hvalue⟩
      · rw [runSource_print_of_fault hroom h.programOf_printing hfault] at htext
        cases (Written.mk.inj htext).2.2
    · rintro ⟨value, rfl, hvalue⟩
      exact runSource_print_of_ok hroom h.programOf_printing hvalue
  fails f := by
    rw [h.result_eq_fault_iff]
    refine ⟨runSource_print_of_fault hroom h.programOf_printing, fun hrun => ?_⟩
    rcases h.eval_cases with ⟨value, hvalue⟩ | ⟨found, hfault⟩
    · rw [runSource_print_of_ok hroom h.programOf_printing hvalue] at hrun
      cases (Written.mk.inj hrun).2.2
    · rw [runSource_print_of_fault hroom h.programOf_printing hfault] at hrun
      cases (Written.mk.inj hrun).2.2
      exact hfault
  unended := runSource_of_error h.programOf_eq sink
  no_program program hprogram := by
    rw [h.programOf_eq] at hprogram
    cases hprogram

end Running

/-- **A line at the prompt agrees with a source.** A line that is an expression is answered with a
value that has the text which `print` writes, or with the fault that `print` fails with; it writes
nothing itself, and as a source it has the one fault that its semicolon is missing. A line that is
no expression is run as a source, with no value for an answer. -/
theorem runLine_agrees (line : String) (sink : Sink) (hroom : sink.room = none) :
    (∀ e, IsExpression line e → AnsweredAs sink line e) ∧
      ((∀ e, ¬ IsExpression line e) →
        runLine sink line = (runSource sink line).map (·.map fun () => none)) := by
  refine ⟨fun e he => he.answeredAs hroom, fun hnone => ?_⟩
  rw [runLine, runSource, entryOf_of_not_isExpression hnone]
  cases programOf line <;> rfl

/-- The line `nil//` at the prompt, and printed: its comment ends in front of the semicolon. -/
theorem runLine_agrees_comment :
    Sink.endless.room = none ∧ IsExpression "nil//" (.literal .nil) ∧
      (runLine .endless "nil//").result = .ok (some .nil) ∧
      runSource .endless "print nil//\n;" = ⟨Text.utf8 "nil\n", .endless, .ok ()⟩ ∧
      runSource .endless "nil//" = ⟨[], .endless, .error (.fault (.compile
        [⟨1, "at end", "Expect ';' after expression."⟩]))⟩ := by
  have hword : Cut .word "nil".toList "//".toList :=
    .word rfl (List.all_eq_true.1 rfl) (by rintro x ⟨⟩; rfl)
  have hcomment : Cut .gap "//".toList [] := .comment (by simp) (by rintro x ⟨⟩)
  have hscans : Scans 1 ("nil".toList ++ "//".toList) _ :=
    .piece hword rfl (.piece hcomment rfl (.done _))
  have hscan : Token.scan "nil//" = .ok ([⟨.keyword .nil_, "nil", 1⟩] ++ [.endMarker 1]) :=
    Token.scan_of_scans (show Scans 1 "nil//".toList _ from hscans)
  have hnil : (Expr.literal .nil).DerivesFrom [⟨.keyword .nil_, "nil", 1⟩] :=
    ⟨.literal _, by decide, .literal rfl⟩
  have hline : IsExpression "nil//" (.literal .nil) := by
    refine ⟨_, hscan, ?_⟩
    rw [Expr.ofTokens_append (by decide) rfl ⟨_, rfl, rfl⟩,
      (Expr.readAll_eq_ok_iff _ _).2 hnil]
    rfl
  have hanswered := (runLine_agrees "nil//" .endless rfl).1 _ hline
  have hanswer := (hanswered.answer .nil).2 rfl
  exact ⟨rfl, hline, hanswer, (hanswered.prints _).2 ⟨_, rfl, hanswer⟩, hanswered.unended⟩

/-- The line `"1"`: what is printed is the text of the number one, but the answer is a string, which
has the same text. So what is printed does not determine the answer. -/
theorem runLine_string_printed_as_number :
    let line := "\"1\""
    let one : Value := .number (Float.ofBits 0x3ff0000000000000)
    Sink.endless.room = none ∧ IsExpression line (.literal (.string "1")) ∧
      runSource .endless (printing line) = ⟨Text.utf8 (one.text ++ "\n"), .endless, .ok ()⟩ ∧
      (runLine .endless line).result = .ok (some (.string "1")) ∧
      (runLine .endless line).result ≠ .ok (some one) := by
  intro line one
  let token : Token := ⟨.string "1", line, 1⟩
  have hcut : Cut .string ('"' :: (['1'] ++ ['"'])) [] := .string (by simp)
  have hscans : Scans 1 ('"' :: (['1'] ++ ['"']) ++ []) _ := .piece hcut rfl (.done _)
  have hscan : Token.scan line = .ok ([token] ++ [.endMarker 1]) :=
    Token.scan_of_scans (show Scans 1 "\"1\"".toList _ from hscans)
  have hstring : (Expr.literal (.string "1")).DerivesFrom [token] :=
    ⟨.literal _, by decide, .literal rfl⟩
  have hline := isExpression_of_scan hscan hstring
  have hanswer := (hline.result_eq_ok_iff .endless (.string "1")).2 rfl
  have htext : one.text = "1" := by decide +kernel
  refine ⟨rfl, hline, ?_, hanswer, ?_⟩
  · rw [htext]
    exact runSource_print_of_ok rfl hline.programOf_printing rfl
  · rw [hanswer]
    simp [one]

end Lox
