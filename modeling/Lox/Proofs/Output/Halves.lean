/-
A source run in two halves.

Two sources with a line feed between them are scanned as the one behind the other, the second one
further down, and if the first one is a program the second one is read as if it stood alone. So
the second half differs from the second source by lines only. Lines go into faults and into nothing
else, hence a tree whose tokens stand further down has the same value or the same fault, further
down; and so on for statements, programs and whole runs.

The halves meet in `programOf_append_lineFeed` when they are compiled and in
`Program.execute_append_of_ok` when they are executed.
-/
import Lox.Proofs.Grammar.Lockstep
import Lox.Proofs.Lexing.Seam
import Lox.Proofs.Typing.Programs

set_option autoImplicit false

namespace Lox

/-! ## Faults further down -/

/-- The same fault `n` lines further down. Its cause and its operator are the same. -/
def RuntimeFault.later (n : Nat) (f : RuntimeFault) : RuntimeFault :=
  { f with line := f.line + n }

/-- The same fault `n` lines further down. A refusal belongs to no line. -/
def ExecutionFault.later (n : Nat) : ExecutionFault → ExecutionFault
  | runtime f => .runtime (f.later n)
  | output r => .output r

/-- The same fault `n` lines further down, every diagnostic of it. -/
def RunFault.later (n : Nat) : RunFault → RunFault
  | compile ds => .compile (ds.map (Diagnostic.later n))
  | execution f => .execution (f.later n)

/-! ## Tokens further down -/

/-- Each token with the same one `n` lines further down. -/
def Pairing.later (n : Nat) : Pairing where
  Pairs t u := u = t.later n
  kind_eq := by
    rintro t u rfl
    rfl

variable {n : Nat}

theorem Pairing.later_map (n : Nat) (tokens : List Token) :
    List.Forall₂ (Pairing.later n).Pairs tokens (tokens.map (Token.later n)) := by
  rw [List.forall₂_map_right_iff, List.forall₂_same]
  intro t _
  rfl

/-- The end of the tokens moves with the end marker. -/
theorem Misfit.Parallel.diagnostic_later {m other : Misfit} (h : m.Parallel (Pairing.later n) other)
    (marker : Token) : other.diagnostic (marker.later n) = (m.diagnostic marker).later n := by
  obtain ⟨cause, rest⟩ := m
  obtain ⟨cause', rest'⟩ := other
  obtain rfl : cause = cause' := h.cause
  rw [diagnostic, diagnostic]
  cases h.rest with
  | nil => rfl
  | cons htu _ =>
    cases htu
    rfl

theorem Misfit.diagnostics_later {ms others : List Misfit}
    (h : List.Forall₂ (Misfit.Parallel (Pairing.later n)) ms others) (marker : Token) :
    others.map (·.diagnostic (marker.later n)) =
      (ms.map (·.diagnostic marker)).map (Diagnostic.later n) := by
  induction h with
  | nil => rfl
  | cons hm _ ih =>
    rw [List.map_cons, List.map_cons, List.map_cons, hm.diagnostic_later, ih]

/-! ## Evaluation further down -/

namespace Token

theorem applyUnary_later (n : Nat) (t : Token) (operand : Value) :
    (t.later n).applyUnary operand =
      (t.applyUnary operand).reportAs (RuntimeFault.later n) := by
  have hmeaning : (t.later n).meaning = t.meaning := rfl
  rw [applyUnary.eq_def, applyUnary.eq_def, hmeaning]
  cases t.meaning with
  | symbol s =>
    cases s with
    | minus => cases operand <;> rfl
    | _ => rfl
  | _ => rfl

theorem applyToNumbers_later (n : Nat) (t : Token) (operation : Float → Float → Value)
    (left right : Value) :
    (t.later n).applyToNumbers operation left right =
      (t.applyToNumbers operation left right).reportAs (RuntimeFault.later n) := by
  cases left with
  | number x => cases right <;> rfl
  | _ => rfl

theorem applyBinary_later (n : Nat) (t : Token) (left right : Value) :
    (t.later n).applyBinary left right =
      (t.applyBinary left right).reportAs (RuntimeFault.later n) := by
  have hmeaning : (t.later n).meaning = t.meaning := rfl
  rw [applyBinary.eq_def, applyBinary.eq_def, hmeaning]
  cases t.meaning with
  | symbol s =>
    cases s with
    | plus => cases left <;> cases right <;> rfl
    | minus | star | slash | greater | greaterEqual | less | lessEqual =>
      exact applyToNumbers_later n t _ left right
    | _ => rfl
  | _ => rfl

end Token

/-- A tree further down has the same value, or the same fault further down. -/
theorem Expr.Parallel.eval_later {e other : Expr} (h : e.Parallel (Pairing.later n) other) :
    other.eval = e.eval.reportAs (RuntimeFault.later n) := by
  induction h with
  | @literal t u value value' htu ht hu =>
    cases htu
    have hsame : t.literal? = some value' := hu
    rw [ht] at hsame
    cases hsame
    rfl
  | group _ ih => exact ih
  | @unary t u operand operand' htu _ ih =>
    cases htu
    rw [eval, eval, ih, Attempt.reportAs_bind]
    simp only [Token.applyUnary_later]
  | @binary t u left left' right right' _ htu _ ihleft ihright =>
    cases htu
    rw [eval, eval, ihleft, ihright]
    simp only [Attempt.reportAs_bind, Token.applyBinary_later]

/-! ## Execution further down -/

namespace Stmt.Parallel

variable {s other : Stmt}

theorem expr {P : Pairing} (h : s.Parallel P other) : s.expr.Parallel P other.expr := by
  cases h with
  | expression he => exact he
  | print he => exact he

theorem printed_eq (h : s.Parallel (Pairing.later n) other) : other.printed = s.printed := by
  cases h with
  | expression he => rfl
  | @print e e' he =>
    rw [printed, printed, he.eval_later]
    rcases e.eval with (f | b) | value <;> rfl

theorem outcome_later (h : s.Parallel (Pairing.later n) other) :
    other.outcome = s.outcome.reportAs (ExecutionFault.later n) := by
  rw [outcome, outcome, h.expr.eval_later]
  rcases s.expr.eval with (f | b) | value <;> rfl

end Stmt.Parallel

namespace Program

/-- A program further down comes to the same, further down. -/
theorem outcome_later {p q : Program} (h : List.Forall₂ (Stmt.Parallel (Pairing.later n)) p q) :
    outcome q = (outcome p).reportAs (ExecutionFault.later n) := by
  induction h with
  | nil => rfl
  | @cons s s' p q hs _ ih =>
    rw [outcome] at ih
    rw [outcome, outcome, List.forM_cons, List.forM_cons, Attempt.reportAs_bind, hs.outcome_later,
      ih]
    rfl

/-- A program further down prints the same: it ends at the same statement. -/
theorem printed_later {p q : Program} (h : List.Forall₂ (Stmt.Parallel (Pairing.later n)) p q) :
    printed q = printed p := by
  induction h with
  | nil => rfl
  | @cons s s' p q hs _ ih =>
    have hisOk : s'.outcome.isOk = s.outcome.isOk := by
      rw [hs.outcome_later, Attempt.isOk_reportAs]
    rw [printed, printed, unfaulted, unfaulted] at ih ⊢
    rw [List.takeWhile_cons, List.takeWhile_cons, hisOk]
    by_cases hok : s.outcome.isOk = true
    · rw [if_pos hok, if_pos hok, List.flatMap_cons, List.flatMap_cons, hs.printed_eq, ih]
    · rw [if_neg hok, if_neg hok]

end Program

/-! ## Compiling the halves -/

section Compile

variable {a : String}

/-- What a source that is a program is made of. -/
theorem scan_of_programOf {p : Program} (ha : programOf a = .ok p) :
    ∃ body, Token.scan a = .ok (body ++ [.endMarker (1 + a.toList.count '\n')]) ∧
      (∀ t ∈ body, t.isEnding = false) ∧ p.DerivesFrom body := by
  have hcompiles := ha
  rw [programOf] at hcompiles
  obtain ⟨tokens, htokens, -⟩ := Attempt.bind_eq_ok hcompiles
  rw [tokensOf] at htokens
  have hscan := Attempt.reportAs_eq_ok htokens
  obtain ⟨body, rfl, hopen⟩ := Token.scan_body hscan
  rw [programOf_of_scan hscan hopen rfl, Attempt.mapError_eq_ok_iff] at ha
  exact ⟨body, hscan, hopen, (Program.readAll_eq_ok_iff body p).1 ha⟩

/-- Behind a program and a line feed a source is the same program further down, or it has the same
diagnostics further down. -/
theorem programOf_append_lineFeed {p : Program} (ha : programOf a = .ok p) (b : String) :
    Alike
      (fun failure other => ∃ ds, failure = .fault (.compile ds) ∧
        other = .fault (.compile (ds.map (Diagnostic.later (1 + a.toList.count '\n')))))
      (fun q whole => ∃ q', whole = p ++ q' ∧
        List.Forall₂ (Stmt.Parallel (Pairing.later (1 + a.toList.count '\n'))) q q')
      (programOf b) (programOf (a ++ "\n" ++ b)) := by
  obtain ⟨front, hscan, hfront, hp⟩ := scan_of_programOf ha
  obtain ⟨front', hfront', hok, hfault⟩ := Token.scan_append_lineFeed hscan b
  obtain rfl : front = front' := List.append_inj_left' hfront' rfl
  rcases (Token.scan_keeps b).result_or_fault with ⟨others, hb⟩ | ⟨d, hb⟩
  · obtain ⟨back, stop, rfl, hback⟩ := Token.scan_terminated hb
    have hwhole := hok _ hb
    rw [List.map_append, ← List.append_assoc] at hwhole
    have hopen : ∀ t ∈ front ++ back.map (Token.later (1 + a.toList.count '\n')),
        t.isEnding = false := by
      intro t ht
      rcases List.mem_append.1 ht with ht | ht
      · exact hfront t ht
      · obtain ⟨u, hu, rfl⟩ := List.mem_map.1 ht
        exact hback u hu
    rw [programOf_of_scan hb hback rfl, programOf_of_scan hwhole hopen rfl,
      Program.readAll_append hp]
    have halike := Program.readAll_alike
      (Pairing.later_map (1 + a.toList.count '\n') back)
    cases hread : Program.readAll back with
    | ok q =>
      rw [hread] at halike
      obtain ⟨q', hread', hq⟩ := halike.ok_left
      rw [hread']
      exact .ok ⟨q', rfl, hq⟩
    | error ms =>
      rw [hread] at halike
      obtain ⟨ms', hread', hms⟩ := halike.error_left
      rw [hread']
      refine .error ⟨_, rfl, ?_⟩
      rw [← Misfit.diagnostics_later hms]
  · rw [programOf_of_scan_fault hb, programOf_of_scan_fault (hfault d hb)]
    exact .error ⟨[d], rfl, rfl⟩

end Compile

/-! ## Running the halves -/

section Run

variable {sink : Sink} {source : String}

theorem runSource_of_error {failure : Failure RunFault}
    (hprogram : programOf source = .error failure) (sink : Sink) :
    runSource sink source = ⟨[], sink, .error failure⟩ := by
  rw [runSource, hprogram]

theorem runSource_of_room_none (hroom : sink.room = none) {program : Program}
    (hprogram : programOf source = .ok program) :
    runSource sink source =
      ⟨program.printed, sink, program.outcome.reportAs .execution⟩ := by
  rw [runSource, hprogram]
  change runProgram sink program = _
  rw [runProgram, Program.execute_of_room_none hroom]
  rfl

/-- Where nothing is refused, a source has diagnostics or is a program, which is executed to its end
or to a fault of evaluation. -/
theorem runSource_cases (hroom : sink.room = none) (source : String) :
    (∃ ds, programOf source = .error (.fault (.compile ds)) ∧
      runSource sink source = ⟨[], sink, .error (.fault (.compile ds))⟩) ∨
    (∃ program, programOf source = .ok program ∧ program.outcome = .ok () ∧
      runSource sink source = ⟨program.printed, sink, .ok ()⟩) ∨
    ∃ program f, programOf source = .ok program ∧
      program.outcome = .error (.fault (.runtime f)) ∧
      runSource sink source =
        ⟨program.printed, sink, .error (.fault (.execution (.runtime f)))⟩ := by
  cases hprogram : programOf source with
  | error failure =>
    obtain ⟨ds, rfl⟩ := programOf_eq_error hprogram
    exact .inl ⟨ds, rfl, runSource_of_error hprogram sink⟩
  | ok program =>
    have hrun := runSource_of_room_none hroom hprogram
    rcases Program.outcome_ok_or_runtime ((programOf_keeps source).2 program hprogram) with
      hok | ⟨f, hfails⟩
    · rw [hok] at hrun
      exact .inr (.inl ⟨program, rfl, hok, hrun⟩)
    · rw [hfails] at hrun
      exact .inr (.inr ⟨program, f, rfl, hfails, hrun⟩)

end Run

/-- **A source may be run in halves.** Let the first source be a program, let a line feed stand
between the two, and let the sink take everything. If the second source is a program too, running
the whole is running the first one where that ends with a fault of evaluation; else it is running
the one after the other, with the result of the second one, whose line is further down by the number
of lines of the first one. If the second source is no program, nothing is written, and the whole has
the diagnostics of the second one, which are further down by so much. -/
theorem runSource_append_lineFeed (a b : String) (sink : Sink) (p : Program)
    (hroom : sink.room = none) (ha : programOf a = .ok p) :
    let lines := 1 + a.toList.count '\n'
    let whole := runSource sink (a ++ "\n" ++ b)
    ((∃ q, programOf b = .ok q) →
      (∃ f, (runSource sink a).result = .error (.fault (.execution (.runtime f))) ∧
        whole = runSource sink a) ∨
      ((runSource sink a).result = .ok () ∧
        whole = ⟨(runSource sink a).bytes ++ (runSource sink b).bytes, sink,
          (runSource sink b).result.reportAs (RunFault.later lines)⟩)) ∧
    ∀ failure, programOf b = .error failure →
      ∃ ds, failure = .fault (.compile ds) ∧
        runSource sink b = ⟨[], sink, .error (.fault (.compile ds))⟩ ∧
        whole = ⟨[], sink, .error (.fault (.compile (ds.map (Diagnostic.later lines))))⟩ := by
  intro lines whole
  have halike := programOf_append_lineFeed ha b
  refine ⟨?_, ?_⟩
  · rintro ⟨q, hb⟩
    rw [hb] at halike
    obtain ⟨_, hwhole, q', rfl, hq⟩ := halike.ok_left
    have hprinted := Program.printed_later hq
    have houtcome := Program.outcome_later hq
    have hrunA := runSource_of_room_none hroom ha
    have hrunB := runSource_of_room_none hroom hb
    have hexecuteA := Program.execute_of_room_none hroom p
    have hrun : whole = (Program.execute sink (p ++ q')).map (·.reportAs .execution) := by
      show runSource sink _ = _
      rw [runSource, hwhole]
      rfl
    rcases Program.outcome_ok_or_runtime ((programOf_keeps a).2 p ha) with hok | ⟨f, hfails⟩
    · have hfirst : (Program.execute sink p).result = .ok () := by rw [hexecuteA, hok]
      refine .inr ⟨by rw [hrunA, hok]; rfl, ?_⟩
      rw [hrun, Program.execute_append_of_ok hfirst, hexecuteA, Written.andThen,
        Program.execute_of_room_none hroom q', hrunA, hrunB, hprinted, houtcome]
      rcases q.outcome with ((f | r) | b) | done <;> rfl
    · have hfirst : (Program.execute sink p).result = .error (.fault (.runtime f)) := by
        rw [hexecuteA, hfails]
      refine .inl ⟨f, by rw [hrunA, hfails]; rfl, ?_⟩
      rw [hrun, Program.execute_append_of_error hfirst, hexecuteA, hrunA]
      rfl
  · intro failure hb
    rw [hb] at halike
    obtain ⟨_, hwhole, ds, rfl, rfl⟩ := halike.error_left
    exact ⟨ds, rfl, runSource_of_error hb sink, runSource_of_error hwhole sink⟩

/-- The first half ends with a comment, which the line feed ends, and the second one fails. -/
theorem runSource_append_lineFeed_comment :
    programOf "print nil;//" = .ok [.print (.literal .nil)] ∧
      runSource .endless ("print nil;//" ++ "\n" ++ "-nil;") =
        ⟨Text.utf8 "nil\n", .endless,
          .error (.fault (.execution (.runtime ⟨.notNumber, 2, "-"⟩)))⟩ := by
  let minus : Token := ⟨.symbol .minus, "-", 1⟩
  have hprint : Cut .word "print".toList " nil;//".toList :=
    .word rfl (List.all_eq_true.1 rfl) (by rintro x ⟨⟩; rfl)
  have hblank : Cut .gap " ".toList "nil;//".toList := .blank rfl
  have hword : ∀ rest, Cut .word "nil".toList (';' :: rest) := fun rest =>
    .word rfl (List.all_eq_true.1 rfl) (by rintro x ⟨⟩; rfl)
  have hsemicolon : ∀ rest, Cut (.symbol .semicolon) [';'] rest := fun rest => .lone rfl
  have hcomment : Cut .gap "//".toList [] := .comment (by simp) (by rintro x ⟨⟩)
  have hsign : Cut (.symbol .minus) "-".toList "nil;".toList := .lone rfl
  have hscansA : Scans 1 ("print".toList ++ " nil;//".toList) _ :=
    .piece hprint rfl (.piece hblank rfl (.piece (hword _) rfl
      (.piece (hsemicolon _) rfl (.piece hcomment rfl (.done _)))))
  have hscansB : Scans 1 ("-".toList ++ "nil;".toList) _ :=
    .piece hsign rfl (.piece (hword _) rfl (.piece (hsemicolon _) rfl (.done _)))
  have hscanA : Token.scan "print nil;//" = .ok ([⟨.keyword .print_, "print", 1⟩,
      ⟨.keyword .nil_, "nil", 1⟩, ⟨.symbol .semicolon, ";", 1⟩] ++ [.endMarker 1]) :=
    Token.scan_of_scans (show Scans 1 "print nil;//".toList _ from hscansA)
  have hscanB : Token.scan "-nil;" = .ok ([minus, ⟨.keyword .nil_, "nil", 1⟩,
      ⟨.symbol .semicolon, ";", 1⟩] ++ [.endMarker 1]) :=
    Token.scan_of_scans (show Scans 1 "-nil;".toList _ from hscansB)
  have hnil : (Expr.literal .nil).DerivesFrom [⟨.keyword .nil_, "nil", 1⟩] :=
    ⟨.literal _, by decide, .literal rfl⟩
  have hminus : (Expr.unary minus (.literal .nil)).DerivesFrom
      [minus, ⟨.keyword .nil_, "nil", 1⟩] :=
    ⟨.unary (.inl rfl) (.literal _) trivial, by decide, .unary (.literal rfl)⟩
  have ha : programOf "print nil;//" = .ok [.print (.literal .nil)] := by
    rw [programOf_of_scan hscanA (by decide) rfl, Attempt.mapError_eq_ok_iff,
      Program.readAll_eq_ok_iff]
    exact .cons (.print rfl hnil rfl) .nil
  have hb : programOf "-nil;" = .ok [.expression (.unary minus (.literal .nil))] := by
    rw [programOf_of_scan hscanB (by decide) rfl, Attempt.mapError_eq_ok_iff,
      Program.readAll_eq_ok_iff]
    exact .cons (.expression hminus rfl) .nil
  have hroom : Sink.endless.room = none := rfl
  have hrunA := runSource_of_room_none hroom ha
  have hrunB := runSource_of_room_none hroom hb
  refine ⟨ha, ?_⟩
  rcases (runSource_append_lineFeed _ _ _ _ hroom ha).1 ⟨_, hb⟩ with
    ⟨f, hfails, -⟩ | ⟨-, hwhole⟩
  · rw [hrunA] at hfails
    cases hfails
  · rw [hwhole, hrunA, hrunB]
    rfl

end Lox
