/-
No source breaks a contract.

Each stage relies on a promise of the one before it: the slices of a scan are in order, the tokens
of a scan end with an end marker, a reading never passes that marker, and the operators in a tree
are operators. The promises are kept for every source, so whatever a source says, its stages come to
a result or to a fault of the source.

That a reading finds a token wherever it looks is said twice: of the stepwise parsers, state by
state, for the two indices they look at, and of the readers, which keep what is left instead of an
index, for every place they come to.

The ways in which stages are put together keep the contracts that their parts keep; what is left is
one lemma for each stage.
-/
import Lox.Proofs.Grammar.Places
import Lox.Proofs.Grammar.Unread
import Lox.Proofs.Lexing.Slices
import Lox.Session

set_option autoImplicit false

namespace Lox

/-! ## Operators -/

/-- Every operator in the tree is one: of each unary operation a sign or an exclamation mark, of
each binary one an operator of some level. -/
def Expr.Operated : Expr → Prop
  | literal _ => True
  | group inner => inner.Operated
  | unary operator operand => operator.Negates ∧ operand.Operated
  | binary left operator right =>
    left.Operated ∧ (∃ level, operator.Joins level) ∧ right.Operated

/-- The trees of the grammar have operators only. -/
theorem Expr.Canonical.operated {e : Expr} (h : e.Canonical) : e.Operated := by
  induction h with
  | literal value => trivial
  | group _ ih => exact ih
  | unary hnegates _ _ ih => exact ⟨hnegates, ih⟩
  | binary hjoins _ _ _ _ ihleft ihright => exact ⟨ihleft, ⟨_, hjoins⟩, ihright⟩

namespace Token

variable {operator : Token}

theorem applyUnary_keeps (h : operator.Negates) (operand : Value) :
    (operator.applyUnary operand).Keeps := by
  rw [applyUnary.eq_def]
  rcases h with h | h
  · rw [h]
    cases operand with
    | number x => exact Attempt.keeps_ok _
    | _ => exact Attempt.keeps_fault _
  · rw [h]
    exact Attempt.keeps_ok _

theorem applyToNumbers_keeps (operation : Float → Float → Value) (left right : Value) :
    (operator.applyToNumbers operation left right).Keeps := by
  rw [applyToNumbers.eq_def]
  split
  · exact Attempt.keeps_ok _
  · exact Attempt.keeps_fault _

theorem applyBinary_keeps {level : Level} (h : operator.Joins level) (left right : Value) :
    (operator.applyBinary left right).Keeps := by
  obtain ⟨s, hs, hmeaning⟩ := h
  rw [applyBinary.eq_def, hmeaning]
  -- the ten operators by level, which leaves the table's last line without a case
  cases level with
  | equality =>
    have hcases : s = .bangEqual ∨ s = .equalEqual := by simpa [Level.operators] using hs
    rcases hcases with rfl | rfl
    · exact Attempt.keeps_ok _
    · exact Attempt.keeps_ok _
  | comparison =>
    have hcases : s = .greater ∨ s = .greaterEqual ∨ s = .less ∨ s = .lessEqual := by
      simpa [Level.operators] using hs
    rcases hcases with rfl | rfl | rfl | rfl
    · exact applyToNumbers_keeps _ _ _
    · exact applyToNumbers_keeps _ _ _
    · exact applyToNumbers_keeps _ _ _
    · exact applyToNumbers_keeps _ _ _
  | term =>
    have hcases : s = .minus ∨ s = .plus := by simpa [Level.operators] using hs
    rcases hcases with rfl | rfl
    · exact applyToNumbers_keeps _ _ _
    · simp only
      split
      · exact Attempt.keeps_ok _
      · exact Attempt.keeps_ok _
      · exact Attempt.keeps_fault _
  | factor =>
    have hcases : s = .slash ∨ s = .star := by simpa [Level.operators] using hs
    rcases hcases with rfl | rfl
    · exact applyToNumbers_keeps _ _ _
    · exact applyToNumbers_keeps _ _ _

end Token

/-- A tree whose operators are operators has a value or a fault. -/
theorem Expr.Operated.eval_keeps {e : Expr} (h : e.Operated) : e.eval.Keeps := by
  induction e with
  | literal value => exact Attempt.keeps_ok value
  | group inner ih => exact ih h
  | unary operator operand ih =>
    obtain ⟨hnegates, hoperand⟩ := h
    rw [eval]
    exact (ih hoperand).bind fun value _ => Token.applyUnary_keeps hnegates value
  | binary left operator right ihleft ihright =>
    obtain ⟨hleft, ⟨level, hjoins⟩, hright⟩ := h
    rw [eval]
    exact (ihleft hleft).bind fun l _ =>
      (ihright hright).bind fun r _ => Token.applyBinary_keeps hjoins l r

/-! ## Execution -/

/-- Every operator in a statement of the program is one. -/
def Program.Operated (program : Program) : Prop :=
  ∀ s ∈ program, s.expr.Operated

theorem Program.DerivesFrom.operated {program : Program} {tokens : List Token}
    (h : program.DerivesFrom tokens) : Program.Operated program := by
  induction h with
  | nil => simp [Program.Operated]
  | cons hs _ ih =>
    intro s hmem
    rcases List.mem_cons.1 hmem with rfl | hmem
    · cases hs with
      | expression he _ => exact he.canonical.operated
      | print _ he _ => exact he.canonical.operated
    · exact ih s hmem

/-- Whatever the sink does, a statement is executed or comes to a fault. -/
theorem Stmt.execute_keeps {s : Stmt} (h : s.expr.Operated) (sink : Sink) :
    (s.execute sink).result.Keeps := by
  have hvalue := h.eval_keeps.reportAs ExecutionFault.runtime
  rw [execute.eq_def]
  cases hresult : Attempt.reportAs ExecutionFault.runtime s.expr.eval with
  | error failure =>
    rw [hresult] at hvalue
    exact hvalue.error
  | ok value =>
    cases s with
    | expression e => exact Attempt.keeps_ok ()
    | print e =>
      simp only [Written.map]
      split
      · exact Attempt.keeps_ok ()
      · exact Attempt.keeps_fault _

theorem Program.execute_keeps {program : Program} (h : Program.Operated program) (sink : Sink) :
    (program.execute sink).result.Keeps := by
  induction program generalizing sink with
  | nil => exact Attempt.keeps_ok ()
  | cons s program ih =>
    have hs := Stmt.execute_keeps (h s (List.mem_cons_self ..)) sink
    rw [execute, Written.andThen]
    -- the sink may refuse in any statement, and then the others are not executed
    cases hresult : (s.execute sink).result with
    | ok done => exact ih (fun s hmem => h s (List.mem_cons_of_mem _ hmem)) _
    | error failure =>
      rw [hresult] at hs
      exact hs

/-! ## Sources -/

section Source

variable {source : String} {tokens : List Token}

/-- Scanning a source breaks no contract. -/
theorem Token.scan_keeps (source : String) : (Token.scan source).Keeps := by
  obtain ⟨result, -, hscan⟩ := Token.scan_scans source
  rw [hscan]
  exact Attempt.keeps_mapError result id

/-- The tokens of a source end with an end marker, and it is the only one. -/
theorem Token.scan_terminated (hscan : Token.scan source = .ok tokens) :
    ∃ body stop, tokens = body ++ [.endMarker stop] ∧ ∀ t ∈ body, t.isEnding = false :=
  (Token.scans_of_ok hscan).terminated rfl

/-- Reading an expression from terminated tokens breaks no contract, and its operators are. -/
theorem Expr.ofTokens_keeps (hterminated : Terminated tokens) :
    (Expr.ofTokens tokens).Keeps ∧ ∀ e, Expr.ofTokens tokens = .ok e → e.Operated := by
  obtain ⟨body, marker, tail, rfl, hbody, hmarker, htail⟩ := hterminated.split
  rw [Expr.ofTokens_append hbody hmarker htail]
  refine ⟨Attempt.keeps_mapError _ _, fun e he => ?_⟩
  have hread : Expr.readAll body = .ok e := Attempt.mapError_eq_ok_iff.1 he
  exact ((Expr.readAll_eq_ok_iff body e).1 hread).canonical.operated

theorem Program.ofTokens_keeps (hterminated : Terminated tokens) :
    (Program.ofTokens tokens).Keeps ∧
      ∀ program, Program.ofTokens tokens = .ok program → Program.Operated program := by
  obtain ⟨body, marker, tail, rfl, hbody, hmarker, htail⟩ := hterminated.split
  rw [Program.ofTokens_append hbody hmarker htail]
  refine ⟨Attempt.keeps_mapError _ _, fun program hprogram => ?_⟩
  have hread : Program.readAll body = .ok program := Attempt.mapError_eq_ok_iff.1 hprogram
  exact ((Program.readAll_eq_ok_iff body program).1 hread).operated

end Source

/-! ## Sessions -/

theorem tokensOf_keeps (source : String) : (tokensOf source).Keeps :=
  (Token.scan_keeps source).reportAs _

/-- The tokens that a session reads are those of the scan. -/
theorem tokensOf_terminated {source : String} {tokens : List Token}
    (h : tokensOf source = .ok tokens) : Terminated tokens := by
  have hscan : Token.scan source = .ok tokens := by
    rw [tokensOf] at h
    exact Attempt.reportAs_eq_ok h
  obtain ⟨body, stop, rfl, -⟩ := Token.scan_terminated hscan
  exact Terminated.append body ⟨.endMarker stop, rfl, rfl⟩

theorem programOf_keeps (source : String) : (programOf source).Keeps ∧
    ∀ program, programOf source = .ok program → Program.Operated program := by
  rw [programOf]
  constructor
  · refine (tokensOf_keeps source).bind fun tokens htokens => ?_
    exact (Program.ofTokens_keeps (tokensOf_terminated htokens)).1.reportAs _
  · intro program hprogram
    obtain ⟨tokens, htokens, hread⟩ := Attempt.bind_eq_ok hprogram
    exact (Program.ofTokens_keeps (tokensOf_terminated htokens)).2 program
      (Attempt.reportAs_eq_ok hread)

/-- A source that cannot be scanned has the one diagnostic of the scan. -/
theorem programOf_of_scan_fault {source : String} {d : Diagnostic}
    (hscan : Token.scan source = .error (.fault d)) :
    programOf source = .error (.fault (.compile [d])) := by
  rw [programOf, tokensOf, hscan]
  rfl

/-- The program of a source that can be scanned is the one its tokens make up. -/
theorem programOf_of_scan {source : String} {body : List Token} {marker : Token}
    (hscan : Token.scan source = .ok (body ++ [marker])) (hbody : ∀ t ∈ body, t.isEnding = false)
    (hmarker : marker.isEnding = true) :
    programOf source = (Program.readAll body).mapError
      fun ms => .fault (.compile (ms.map (·.diagnostic marker))) := by
  have hlast : Terminated [marker] := ⟨marker, rfl, hmarker⟩
  have htokens : tokensOf source = .ok (body ++ [marker]) := by
    rw [tokensOf, hscan]
    rfl
  rw [programOf, htokens]
  change (Program.ofTokens (body ++ [marker])).reportAs RunFault.compile = _
  rw [Program.ofTokens_append hbody hmarker hlast]
  cases Program.readAll body <;> rfl

/-- What is wrong with a source that is no program are its diagnostics. -/
theorem programOf_eq_error {source : String} {failure : Failure RunFault}
    (h : programOf source = .error failure) : ∃ ds, failure = .fault (.compile ds) := by
  rcases (Token.scan_keeps source).result_or_fault with ⟨tokens, hscan⟩ | ⟨d, hscan⟩
  · obtain ⟨body, stop, rfl, hopen⟩ := Token.scan_terminated hscan
    rw [programOf_of_scan hscan hopen rfl] at h
    cases hread : Program.readAll body with
    | ok program =>
      rw [hread] at h
      cases h
    | error ms =>
      rw [hread] at h
      exact ⟨_, (Except.error.inj h).symm⟩
  · rw [programOf_of_scan_fault hscan] at h
    exact ⟨[d], (Except.error.inj h).symm⟩

/-- Every operator in what a line says is one. -/
def Entry.Operated : Entry → Prop
  | expression e => e.Operated
  | program p => Program.Operated p

theorem entryOf_keeps (line : String) : (entryOf line).Keeps ∧
    ∀ entry, entryOf line = .ok entry → entry.Operated := by
  rw [entryOf]
  constructor
  · refine (tokensOf_keeps line).bind fun tokens htokens => ?_
    have hterminated := tokensOf_terminated htokens
    have hexpression := (Expr.ofTokens_keeps hterminated).1
    -- only a fault makes the line be read as statements, and there is no breach to pass on
    split
    · exact Attempt.keeps_ok _
    · rename_i b hb
      exact absurd hb (hexpression b)
    · exact ((Program.ofTokens_keeps hterminated).1.reportAs _).bind
        fun program _ => Attempt.keeps_ok (Entry.program program)
  · intro entry hentry
    obtain ⟨tokens, htokens, hread⟩ := Attempt.bind_eq_ok hentry
    have hterminated := tokensOf_terminated htokens
    split at hread
    · rename_i e he
      rw [← Except.ok.inj hread]
      exact (Expr.ofTokens_keeps hterminated).2 e he
    · cases hread
    · obtain ⟨program, hprogram, hentry⟩ := Attempt.bind_eq_ok hread
      rw [← Except.ok.inj hentry]
      exact (Program.ofTokens_keeps hterminated).2 program (Attempt.reportAs_eq_ok hprogram)

theorem runProgram_keeps {program : Program} (h : Program.Operated program) (sink : Sink) :
    (runProgram sink program).result.Keeps :=
  (Program.execute_keeps h sink).reportAs _

theorem runSource_keeps (sink : Sink) (source : String) :
    (runSource sink source).result.Keeps := by
  obtain ⟨hkeeps, hoperated⟩ := programOf_keeps source
  rw [runSource]
  cases hprogram : programOf source with
  | error failure =>
    rw [hprogram] at hkeeps
    exact hkeeps.error
  | ok program => exact runProgram_keeps (hoperated program hprogram) sink

theorem runLine_keeps (sink : Sink) (line : String) : (runLine sink line).result.Keeps := by
  obtain ⟨hkeeps, hoperated⟩ := entryOf_keeps line
  rw [runLine]
  cases hentry : entryOf line with
  | error failure =>
    rw [hentry] at hkeeps
    exact hkeeps.error
  | ok entry =>
    have hentry := hoperated entry hentry
    cases entry with
    | expression e => exact (Expr.Operated.eval_keeps hentry).reportAs _ |>.map _
    | program program => exact (runProgram_keeps hentry sink).map _

/-! ## All stages -/

/-- What is done with these tokens keeps all contracts: they end with their only end marker, the
parsers find one of them wherever they look, and end; a reading stands at one of them wherever it
comes to, and so does every fault it finds; the readings, and the evaluation or execution of what is
read, break no contract, and every operator is one. -/
structure Token.KeepContracts (tokens : List Token) : Prop where
  terminated : ∃ body marker, tokens = body ++ [marker] ∧ marker.isEnding = true ∧
    ∀ t ∈ body, t.isEnding = false
  finds : ∀ start, start = Parser.State.expression ∨ start = Parser.State.ofProgram →
    ∀ n, (Parser.stateAfter tokens n start).Finds tokens
  finishesExpression : ∃ n found,
    (Parser.stateAfter tokens n .expression).task = .finished (.expression found) ∧
      Expr.ofTokens tokens = found.mapError .fault
  finishesProgram : ∃ n found,
    (Parser.stateAfter tokens n .ofProgram).task = .finished (.program found) ∧
      Program.ofTokens tokens = found.mapError .fault
  inRange : ∀ rest, ReadTo tokens rest →
    ∃ (current : Nat) (marker : Token), marker.isEnding = true ∧
      tokens[current]? = some (rest.headD marker)
  faults : ∀ m ∈ Program.misfits (Program.readAll (untilMarker tokens)), ReadTo tokens m.rest
  expression : (Expr.ofTokens tokens).Keeps
  evaluation : ∀ e, Expr.ofTokens tokens = .ok e → e.Operated ∧ e.eval.Keeps
  program : (Program.ofTokens tokens).Keeps
  execution : ∀ program, Program.ofTokens tokens = .ok program →
    Program.Operated program ∧ ∀ sink, (program.execute sink).result.Keeps

/-- The tokens of a scan keep all contracts. -/
theorem Token.scan_keepContracts {source : String} {tokens : List Token}
    (hscan : Token.scan source = .ok tokens) : Token.KeepContracts tokens := by
  obtain ⟨body, stop, rfl, hbody⟩ := Token.scan_terminated hscan
  have hterminated : Terminated (body ++ [.endMarker stop]) :=
    Terminated.append body ⟨.endMarker stop, rfl, rfl⟩
  obtain ⟨hexpression, hevaluated⟩ := Expr.ofTokens_keeps hterminated
  obtain ⟨hprogram, hexecuted⟩ := Program.ofTokens_keeps hterminated
  refine ⟨⟨body, _, rfl, rfl, hbody⟩, ?_, Parser.finishes_expression hterminated,
    Parser.finishes_program hterminated, ?_, ReadTo.start.misfits, hexpression, ?_, hprogram, ?_⟩
  · intro start hstart n
    have hended := Parser.findIdx_isEnding_lt hterminated
    exact ((Parser.State.Inside.of_start hstart).stateAfter hended n).finds hended
  · intro rest hrest
    obtain ⟨current, hcurrent⟩ := hrest.inRange hbody rfl
    exact ⟨current, .endMarker stop, rfl, hcurrent⟩
  · intro e he
    have hoperated := hevaluated e he
    exact ⟨hoperated, hoperated.eval_keeps⟩
  · intro program hread
    have hoperated := hexecuted program hread
    exact ⟨hoperated, Program.execute_keeps hoperated⟩

/-- **No source breaks a contract.** For every source, a scan takes only slices that are in order
and comes to tokens or to a fault; what is done with its tokens keeps all contracts; and running the
source, or running it as a line at a prompt, comes to a result or to a fault, whatever the sink. -/
theorem source_keeps_contracts (source : String) :
    (Token.scan source).Keeps ∧
      (∀ (place after : Cursor) (c : Char), place.ScannedTo source →
        place.next = (some c, after) →
        (Piece.read c after).1.Sliceable source place (Piece.read c after).2) ∧
      (∀ tokens, Token.scan source = .ok tokens → Token.KeepContracts tokens) ∧
      ∀ sink, (runSource sink source).result.Keeps ∧ (runLine sink source).result.Keeps := by
  refine ⟨Token.scan_keeps source, ?_, ?_, ?_⟩
  · intro place after c hplace hnext
    exact hplace.sliceable hnext
  · intro tokens hscan
    exact Token.scan_keepContracts hscan
  · intro sink
    exact ⟨runSource_keeps sink source, runLine_keeps sink source⟩

end Lox
