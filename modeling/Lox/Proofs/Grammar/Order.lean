/-
Diagnostics come in the order of the source.

The reading of a program goes over its tokens in passes, and the passes have no numbers: each is
handed what is left. Here every pass is given the index at which it starts, and every fault the
index of the token it is about. One step is all that has to be looked at. A pass that reads a
statement ends behind its start; one that finds a fault finds it at its start or behind it, and the
next pass starts behind the fault, or the tokens have ended.

So along a run the starts increase and so do the indices of the faults, there are no more passes
than tokens, and nothing comes behind a fault at the end. In a source the lines of the tokens never
decrease, and then neither do those of the diagnostics.
-/
import Lox.Proofs.Grammar.Programs
import Lox.Proofs.Lexing.Lines

set_option autoImplicit false

namespace Lox

/-! ## Numbered passes -/

/-- A fault of a program: its cause, and the token it is about with the index of that token. -/
structure Program.Fault where
  index : Nat
  cause : SyntaxFault
  token : Token

/-- The fault as it is reported. -/
def Program.Fault.diagnostic (f : Program.Fault) : Diagnostic := f.cause.about f.token

/-- A pass over the tokens of a program: the index at which it starts, and the statement it reads or
the fault it finds. -/
structure Pass where
  start : Nat
  found : Except Program.Fault Stmt

namespace Pass

/-- The statement of a pass that read one. -/
def statement? (p : Pass) : Option Stmt :=
  match p.found with
  | .ok s => some s
  | .error _ => none

/-- The fault of a pass that found one. -/
def fault? (p : Pass) : Option Program.Fault :=
  match p.found with
  | .ok _ => none
  | .error f => some f

/-- The pass without its indices, over these tokens. -/
def outcome (body : List Token) (p : Pass) : Except Misfit Stmt :=
  p.found.mapError fun f => ⟨f.cause, body.drop f.index⟩

/-- The pass is made where it starts, and the next one starts at index `j`: behind the statement, or
where the reading goes on after the fault. -/
inductive Leads (tokens : List Token) : Pass → Nat → Prop
  | statement {i j : Nat} {s : Stmt} :
      Stmt.read ((untilMarker tokens).drop i) = .ok (s, (untilMarker tokens).drop j) →
      Leads tokens ⟨i, .ok s⟩ j
  | fault {i j k : Nat} {cause : SyntaxFault} {t : Token} :
      Stmt.read ((untilMarker tokens).drop i) = .error ⟨cause, (untilMarker tokens).drop k⟩ →
      k ≤ (untilMarker tokens).length → tokens[k]? = some t →
      recover ((untilMarker tokens).drop k) = (untilMarker tokens).drop j →
      Leads tokens ⟨i, .error ⟨k, cause, t⟩⟩ j

end Pass

/-- The passes over the tokens from an index on, up to the first end marker. -/
inductive PassesFrom (tokens : List Token) : Nat → List Pass → Prop
  | done : PassesFrom tokens (untilMarker tokens).length []
  | pass {p : Pass} {j : Nat} {run : List Pass} : p.start < (untilMarker tokens).length →
      j ≤ (untilMarker tokens).length → p.Leads tokens j → PassesFrom tokens j run →
      PassesFrom tokens p.start (p :: run)

/-- The faults that the passes found, in order. -/
def faultsOf (run : List Pass) : List Program.Fault := run.filterMap Pass.fault?

/-- The statements that the passes read, in order. -/
def statementsOf (run : List Pass) : List Stmt := run.filterMap Pass.statement?

/-! ## One pass -/

/-- What is left at a place of a reading is what is left from an index on. -/
theorem exists_drop_of_suffix {rest body : List Token} (h : rest <:+ body) :
    ∃ j ≤ body.length, rest = body.drop j :=
  ⟨body.length - rest.length, Nat.sub_le _ _, List.suffix_iff_eq_drop.1 h⟩

/-- Recovery leaves less than there was from the fault on, if there was anything. -/
theorem length_of_recover {body : List Token} {k j : Nat}
    (hrecover : recover (body.drop k) = body.drop j) :
    body.length - j ≤ body.length - k - 1 := by
  have hlength := recover_length (body.drop k)
  rwa [hrecover, List.length_drop, List.length_drop] at hlength

namespace Pass.Leads

variable {tokens : List Token} {p : Pass} {j : Nat}

/-- A fault is not found in front of the pass. The next pass would start behind it, or the tokens
have ended. -/
theorem place (h : p.Leads tokens j) (hstart : p.start < (untilMarker tokens).length)
    {f : Program.Fault} (hf : p.fault? = some f) :
    p.start ≤ f.index ∧ f.index ≤ (untilMarker tokens).length ∧
      tokens[f.index]? = some f.token ∧ (f.index < j ∨ (untilMarker tokens).length ≤ j) := by
  cases h with
  | statement hread => cases hf
  | @fault i j k cause t hread hk ht hrecover =>
    obtain rfl : (⟨k, cause, t⟩ : Program.Fault) = f := Option.some.inj hf
    have hlength := ((Stmt.read_suffix _).2 _ hread).length_le
    have hskipped := length_of_recover hrecover
    rw [List.length_drop, List.length_drop] at hlength
    simp only at hstart ⊢
    exact ⟨by omega, hk, ht, by omega⟩

/-- The next pass starts behind this one. -/
theorem start_lt (h : p.Leads tokens j) (hstart : p.start < (untilMarker tokens).length) :
    p.start < j := by
  cases h with
  | statement hread =>
    have hlength := ((Stmt.read_suffix _).1 _ _ hread).2
    rw [List.length_drop, List.length_drop] at hlength
    simp only at hstart ⊢
    omega
  | fault hread hk ht hrecover =>
    obtain ⟨hle, -, -, hnext⟩ := place (.fault hread hk ht hrecover) hstart rfl
    simp only at hstart hle hnext ⊢
    omega

/-- The pass is the next one that the reading makes. -/
theorem passes_eq (h : p.Leads tokens j) (hstart : p.start < (untilMarker tokens).length) :
    passes ((untilMarker tokens).drop p.start) =
      p.outcome (untilMarker tokens) :: passes ((untilMarker tokens).drop j) := by
  have hne : (untilMarker tokens).drop p.start ≠ [] := by
    rw [Ne, List.drop_eq_nil_iff]
    exact Nat.not_le_of_lt hstart
  cases h with
  | statement hread => exact Program.passes_of_read_ok hread
  | fault hread _ _ hrecover =>
    rw [Program.passes_of_read_error hne hread, hrecover]
    rfl

end Pass.Leads

/-- There is a next pass from every place in front of the end. -/
theorem Pass.exists_leads {tokens : List Token} (hterminated : Terminated tokens) {i : Nat}
    (hi : i < (untilMarker tokens).length) :
    ∃ (p : Pass) (j : Nat), p.start = i ∧ j ≤ (untilMarker tokens).length ∧
      p.Leads tokens j := by
  obtain ⟨body, marker, tail, rfl, hbody, hmarker, -⟩ := hterminated.split
  have huntil : untilMarker (body ++ marker :: tail) = body := untilMarker_append hbody hmarker
  rw [huntil] at hi ⊢
  cases hread : Stmt.read (body.drop i) with
  | ok found =>
    obtain ⟨s, rest⟩ := found
    have hsuffix := ((Stmt.read_suffix _).1 s rest hread).1
    obtain ⟨j, hj, rfl⟩ := exists_drop_of_suffix (hsuffix.trans (List.drop_suffix i body))
    refine ⟨⟨i, .ok s⟩, j, rfl, hj, .statement ?_⟩
    rwa [huntil]
  | error m =>
    obtain ⟨cause, rest⟩ := m
    have hsuffix := ((Stmt.read_suffix _).2 _ hread).trans (List.drop_suffix i body)
    obtain ⟨k, hk, rfl⟩ : ∃ k ≤ body.length, rest = body.drop k := exists_drop_of_suffix hsuffix
    obtain ⟨j, hj, hrecover⟩ := exists_drop_of_suffix ((recover_suffix _).trans hsuffix)
    obtain ⟨t, hmore⟩ := exists_first (body.drop k) marker tail
    have ht := (getElem?_append_eq_some_iff hk _ _).2 hmore
    refine ⟨⟨i, .error ⟨k, cause, t⟩⟩, j, rfl, hj, .fault ?_ ?_ ht ?_⟩
    · rwa [huntil]
    · rwa [huntil]
    · rwa [huntil]

/-! ## A whole run -/

/-- From every place there is a run to the end: the induction is on how much is left. -/
theorem exists_passesFrom {tokens : List Token} (hterminated : Terminated tokens) :
    ∀ i ≤ (untilMarker tokens).length, ∃ run, PassesFrom tokens i run := by
  intro i hi
  induction hleft : (untilMarker tokens).length - i using Nat.strongRecOn generalizing i with
  | ind n ih =>
    by_cases hend : i = (untilMarker tokens).length
    · rw [hend]
      exact ⟨[], .done⟩
    · have hlt : i < (untilMarker tokens).length := Nat.lt_of_le_of_ne hi hend
      obtain ⟨p, j, rfl, hj, hleads⟩ := Pass.exists_leads hterminated hlt
      have hnext := hleads.start_lt hlt
      obtain ⟨run, hrun⟩ := ih ((untilMarker tokens).length - j) (by omega) j hj rfl
      exact ⟨p :: run, .pass hlt hj hleads hrun⟩

namespace PassesFrom

variable {tokens : List Token} {i : Nat} {run : List Pass}

/-- A run is what the reading of the program goes through. -/
theorem outcomes (h : PassesFrom tokens i run) :
    run.map (Pass.outcome (untilMarker tokens)) = passes ((untilMarker tokens).drop i) := by
  induction h with
  | done => rw [List.drop_length, passes, List.map_nil]
  | pass hstart _ hleads _ ih => rw [List.map_cons, ih, hleads.passes_eq hstart]

theorem starts (h : PassesFrom tokens i run) :
    run.Pairwise (·.start < ·.start) ∧
      ∀ p ∈ run, i ≤ p.start ∧ p.start < (untilMarker tokens).length := by
  induction h with
  | done => exact ⟨.nil, fun p hp => by cases hp⟩
  | @pass p j run hstart _ hleads _ ih =>
    have hnext := hleads.start_lt hstart
    refine ⟨List.pairwise_cons.2 ⟨fun q hq => ?_, ih.1⟩, fun q hq => ?_⟩
    · exact Nat.lt_of_lt_of_le hnext (ih.2 q hq).1
    · rcases List.mem_cons.1 hq with rfl | hq
      · exact ⟨Nat.le_refl _, hstart⟩
      · exact ⟨Nat.le_trans (Nat.le_of_lt hnext) (ih.2 q hq).1, (ih.2 q hq).2⟩

/-- Each pass takes up a token of its own. -/
theorem length_le (h : PassesFrom tokens i run) : i + run.length ≤ (untilMarker tokens).length := by
  induction h with
  | done => exact Nat.le_refl _
  | pass hstart _ hleads _ ih =>
    have hnext := hleads.start_lt hstart
    rw [List.length_cons]
    omega

/-- Every fault is at a token behind the place where the run begins, and behind all faults before
it: a fault at the end leaves nothing to pass over. -/
theorem places (h : PassesFrom tokens i run) :
    (faultsOf run).Pairwise (·.index < ·.index) ∧
      ∀ f ∈ faultsOf run, i ≤ f.index ∧ f.index ≤ (untilMarker tokens).length ∧
        tokens[f.index]? = some f.token := by
  induction h with
  | done => exact ⟨.nil, fun f hf => by cases hf⟩
  | @pass p j run hstart hj hleads hrun ih =>
    have hnext := hleads.start_lt hstart
    have hbehind : ∀ f ∈ faultsOf run, p.start ≤ f.index ∧
        f.index ≤ (untilMarker tokens).length ∧ tokens[f.index]? = some f.token := by
      intro f hf
      obtain ⟨hle, hplace⟩ := ih.2 f hf
      exact ⟨Nat.le_trans (Nat.le_of_lt hnext) hle, hplace⟩
    cases hfault : p.fault? with
    | none =>
      rw [faultsOf, List.filterMap_cons_none hfault]
      exact ⟨ih.1, hbehind⟩
    | some f =>
      obtain ⟨hle, hwithin, htoken, hlt⟩ := hleads.place hstart hfault
      rw [faultsOf, List.filterMap_cons_some hfault]
      refine ⟨List.pairwise_cons.2 ⟨fun g hg => ?_, ih.1⟩, fun g hg => ?_⟩
      · rcases hlt with hlt | hend
        · exact Nat.lt_of_lt_of_le hlt (ih.2 g hg).1
        · -- nothing is left behind a fault at the end
          have hlength := hrun.length_le
          obtain rfl : run = [] := List.length_eq_zero_iff.1 (by omega)
          cases hg
      · rcases List.mem_cons.1 hg with rfl | hg
        · exact ⟨hle, hwithin, htoken⟩
        · exact hbehind g hg

end PassesFrom

/-- A pass has a statement or a fault. -/
theorem length_statementsOf_add_length_faultsOf (run : List Pass) :
    (statementsOf run).length + (faultsOf run).length = run.length := by
  induction run with
  | nil => rfl
  | cons p run ih =>
    obtain ⟨start, f | s⟩ := p
    · exact congrArg Nat.succ ih
    · rw [List.length_cons, ← ih, Nat.add_right_comm]
      rfl

/-! ## What is reported -/

/-- What the passes come to as the result of the whole reading. -/
def resultOf (run : List Pass) : Attempt (List Diagnostic) Program :=
  match faultsOf run with
  | [] => .ok (statementsOf run)
  | f :: fs => .error (.fault ((f :: fs).map (·.diagnostic)))

/-- The program is made of the statements of a run, or the diagnostics are those of its faults. -/
theorem PassesFrom.ofTokens_eq {tokens : List Token} (hterminated : Terminated tokens)
    {run : List Pass} (h : PassesFrom tokens 0 run) :
    Program.ofTokens tokens = resultOf run := by
  have houtcomes := h.outcomes
  have hplaces := h.places.2
  obtain ⟨body, marker, tail, rfl, hbody, hmarker, htail⟩ := hterminated.split
  rw [untilMarker_append hbody hmarker] at houtcomes hplaces
  rw [List.drop_zero] at houtcomes
  -- a fault of the run is a misfit of the reading, which is reported in the same words
  have hdiagnostic : ∀ f ∈ faultsOf run,
      (⟨f.cause, body.drop f.index⟩ : Misfit).diagnostic marker = f.diagnostic := by
    intro f hf
    obtain ⟨-, hle, ht⟩ := hplaces f hf
    obtain ⟨more, hmore⟩ := (getElem?_append_eq_some_iff hle _ _).1 ht
    exact Misfit.diagnostic_eq_about (fun u hu => hbody u (List.mem_of_mem_drop hu)) hmarker hmore
  have hmisfits : (passes body).filterMap misfit? =
      (faultsOf run).map fun f => ⟨f.cause, body.drop f.index⟩ := by
    rw [← houtcomes, List.filterMap_map, faultsOf, List.map_filterMap]
    refine List.filterMap_congr fun p _ => ?_
    obtain ⟨start, f | s⟩ := p <;> rfl
  have hstatements : (passes body).filterMap statement? = statementsOf run := by
    rw [← houtcomes, List.filterMap_map, statementsOf]
    refine List.filterMap_congr fun p _ => ?_
    obtain ⟨start, f | s⟩ := p <;> rfl
  rw [Program.ofTokens_append hbody hmarker htail, Program.readAll, resultOf]
  simp only [hmisfits, hstatements]
  cases hfaults : faultsOf run with
  | nil => rfl
  | cons f fs =>
    have hwords : ((f :: fs).map fun f => (⟨f.cause, body.drop f.index⟩ : Misfit)).map
        (·.diagnostic marker) = (f :: fs).map (·.diagnostic) := by
      rw [List.map_map]
      exact List.map_congr_left (hfaults ▸ hdiagnostic)
    exact congrArg (fun ds => (Except.error (.fault ds) : Attempt (List Diagnostic) Program)) hwords

/-! ## In order -/

/-- What the passes find comes in the order of the tokens, and it is what is reported. -/
structure Program.InOrder (tokens : List Token) (run : List Pass) : Prop where
  -- the passes are all those of the reading, and it comes to what they found
  outcomes : run.map (Pass.outcome (untilMarker tokens)) = passes (untilMarker tokens)
  result : Program.ofTokens tokens = resultOf run
  starts : run.Pairwise (·.start < ·.start)
  within : ∀ p ∈ run, p.start < (untilMarker tokens).length
  places : (faultsOf run).Pairwise (·.index < ·.index)
  about : ∀ f ∈ faultsOf run,
    f.index ≤ (untilMarker tokens).length ∧ tokens[f.index]? = some f.token
  count : (statementsOf run).length + (faultsOf run).length ≤ (untilMarker tokens).length
  -- nothing is reported behind a fault at an end marker
  ending : ∀ front f back, faultsOf run = front ++ f :: back → f.token.isEnding = true → back = []

theorem PassesFrom.inOrder {tokens : List Token} (hterminated : Terminated tokens)
    {run : List Pass} (h : PassesFrom tokens 0 run) : Program.InOrder tokens run where
  outcomes := h.outcomes
  result := h.ofTokens_eq hterminated
  starts := h.starts.1
  within p hp := (h.starts.2 p hp).2
  places := h.places.1
  about f hf := (h.places.2 f hf).2
  count := by
    have hlength := h.length_le
    rwa [Nat.zero_add, ← length_statementsOf_add_length_faultsOf] at hlength
  ending := by
    intro front f back hfaults hending
    have hplaces := h.places
    obtain ⟨body, marker, tail, rfl, hbody, hmarker, -⟩ := hterminated.split
    rw [untilMarker_append hbody hmarker, hfaults] at hplaces
    obtain ⟨hordered, hwithin⟩ := hplaces
    obtain ⟨-, hle, ht⟩ := hwithin f (by simp)
    -- the first end marker stands behind the body, and no fault is further behind
    have hindex : body.length ≤ f.index := by
      refine Nat.le_of_not_lt fun hlt => ?_
      rw [List.getElem?_append_left hlt] at ht
      rw [hbody f.token (List.mem_of_getElem? ht)] at hending
      cases hending
    rw [List.eq_nil_iff_forall_not_mem]
    intro g hg
    have hlt : f.index < g.index :=
      (List.pairwise_cons.1 (List.pairwise_append.1 hordered).2.1).1 g hg
    have hle' : g.index ≤ body.length := (hwithin g (by simp [hg])).2.1
    omega

/-- The diagnostics of a source come from top to bottom, and only those about the end say so. -/
structure Program.InSource (source : String) (tokens : List Token)
    (faults : List Program.Fault) : Prop where
  lines : (faults.map (·.diagnostic)).Pairwise (·.line ≤ ·.line)
  lexemes : ∀ f ∈ faults, f.diagnostic.location ≠ "at end" →
    f.token ∈ tokens ∧ f.token.isEnding = false ∧ f.diagnostic.location = f.token.lexeme
  atEnd : ∀ f ∈ faults,
    f.diagnostic.location = "at end" ↔ f.index = (untilMarker tokens).length
  lastLine : ∀ f ∈ faults, f.diagnostic.location = "at end" →
    f.diagnostic.line = 1 + source.toList.count '\n'
  unread : ∀ t ∈ tokens, t.lexeme ≠ "at end"

theorem Program.InOrder.inSource {source : String} {tokens : List Token} {run : List Pass}
    (h : Program.InOrder tokens run) (hscan : Token.scan source = .ok tokens) :
    Program.InSource source tokens (faultsOf run) := by
  have hlines := Token.scan_lines hscan
  have hlexemes := Token.scan_lexeme_ne_atEnd hscan
  have habout := h.about
  obtain ⟨body, rfl, hbody⟩ := Token.scan_body hscan
  have huntil : untilMarker (body ++ [.endMarker (1 + source.toList.count '\n')]) = body :=
    untilMarker_append hbody rfl
  rw [huntil] at habout
  -- a fault is about a token of the body, or about the one end marker
  have hcases : ∀ f ∈ faultsOf run,
      (f.index ≠ body.length ∧ f.token ∈ body ∧ f.diagnostic.location = f.token.lexeme) ∨
        (f.index = body.length ∧ f.token = .endMarker (1 + source.toList.count '\n')) := by
    intro f hf
    obtain ⟨hle, ht⟩ := habout f hf
    by_cases hend : f.index = body.length
    · rw [hend, List.getElem?_concat_length] at ht
      exact .inr ⟨hend, (Option.some.inj ht).symm⟩
    · rw [List.getElem?_append_left (Nat.lt_of_le_of_ne hle hend)] at ht
      have hmem := List.mem_of_getElem? ht
      refine .inl ⟨hend, hmem, ?_⟩
      rw [Fault.diagnostic, SyntaxFault.about, hbody f.token hmem]
      rfl
  have hatEnd : ∀ f ∈ faultsOf run, f.diagnostic.location = "at end" → f.index = body.length := by
    intro f hf hlocation
    rcases hcases f hf with ⟨-, hmem, hlexeme⟩ | ⟨hend, -⟩
    · rw [hlexeme] at hlocation
      exact absurd hlocation (hlexemes f.token (List.mem_append_left _ hmem))
    · exact hend
  constructor
  case lines =>
    rw [List.pairwise_map]
    refine h.places.imp_of_mem fun {f g} hf hg hlt => ?_
    obtain ⟨hi, hf'⟩ := List.getElem?_eq_some_iff.1 (habout f hf).2
    obtain ⟨hj, hg'⟩ := List.getElem?_eq_some_iff.1 (habout g hg).2
    have hle := List.pairwise_iff_getElem.1 hlines f.index g.index hi hj hlt
    rwa [hf', hg'] at hle
  case lexemes =>
    intro f hf hlocation
    rcases hcases f hf with ⟨-, hmem, hlexeme⟩ | ⟨-, htoken⟩
    · exact ⟨List.mem_append_left _ hmem, hbody f.token hmem, hlexeme⟩
    · rw [Fault.diagnostic, htoken] at hlocation
      exact absurd rfl hlocation
  case atEnd =>
    intro f hf
    rw [huntil]
    refine ⟨hatEnd f hf, fun hend => ?_⟩
    rcases hcases f hf with ⟨hne, -⟩ | ⟨-, htoken⟩
    · exact absurd hend hne
    · rw [Fault.diagnostic, htoken]
      rfl
  case lastLine =>
    intro f hf hlocation
    rcases hcases f hf with ⟨hne, -⟩ | ⟨-, htoken⟩
    · exact absurd (hatEnd f hf hlocation) hne
    · rw [Fault.diagnostic, htoken]
      rfl
  case unread => exact hlexemes

/-- **Diagnostics come in the order of the source.** A terminated list is read in passes, and each of
them starts behind the one before it. What is reported are the faults of the passes, about tokens
that come one behind the other, with at most the last one about an end marker; and the statements
and the faults together are no more than the tokens up to the first end marker. For the tokens of a
source the lines of the diagnostics never decrease, each shows the lexeme of a token, and only one
about the end of the source, on its last line, says that it is the end. -/
theorem Program.diagnostics_in_order (tokens : List Token) (hterminated : Terminated tokens) :
    (∃ run, PassesFrom tokens 0 run) ∧
      ∀ run, PassesFrom tokens 0 run → Program.InOrder tokens run ∧
        ∀ source, Token.scan source = .ok tokens →
          Program.InSource source tokens (faultsOf run) := by
  refine ⟨exists_passesFrom hterminated 0 (Nat.zero_le _), fun run hrun => ?_⟩
  have hordered := hrun.inOrder hterminated
  exact ⟨hordered, fun source hscan => hordered.inSource hscan⟩

/-- In `;` and `print` on two lines every pass finds a fault, the second one at the end. -/
theorem Program.diagnostics_in_order_two_faults :
    let semicolon : Token := ⟨.symbol .semicolon, ";", 1⟩
    let keyword : Token := ⟨.keyword .print_, "print", 2⟩
    let tokens : List Token := [semicolon, keyword, .endMarker 2]
    let run : List Pass := [⟨0, .error ⟨0, .expectedExpression, semicolon⟩⟩,
      ⟨1, .error ⟨2, .expectedExpression, .endMarker 2⟩⟩]
    Terminated tokens ∧ Token.scan ";\nprint" = .ok tokens ∧ PassesFrom tokens 0 run ∧
      Program.ofTokens tokens = .error (.fault
        [⟨1, ";", "Expect expression."⟩, ⟨2, "at end", "Expect expression."⟩]) ∧
      Program.InSource ";\nprint" tokens (faultsOf run) := by
  intro semicolon keyword tokens run
  have hsemicolon : Cut (.symbol .semicolon) [';'] "\nprint".toList := .lone rfl
  have hfeed : Cut .gap ['\n'] "print".toList := .blank rfl
  have hkeyword : Cut .word "print".toList [] :=
    .word rfl (List.all_eq_true.1 rfl) (by rintro x ⟨⟩)
  have hscans : Scans 1 ([';'] ++ (['\n'] ++ ("print".toList ++ []))) _ :=
    .piece hsemicolon rfl (.piece hfeed rfl (.piece hkeyword rfl (.done _)))
  have hscan : Token.scan ";\nprint" = .ok tokens :=
    Token.scan_of_scans (show Scans 1 ";\nprint".toList _ from hscans)
  have hterminated : Terminated tokens := ⟨.endMarker 2, rfl, rfl⟩
  have hfirst : Pass.Leads tokens ⟨0, .error ⟨0, .expectedExpression, semicolon⟩⟩ 1 :=
    .fault rfl (by decide) rfl rfl
  have hsecond : Pass.Leads tokens ⟨1, .error ⟨2, .expectedExpression, .endMarker 2⟩⟩ 2 :=
    .fault rfl (by decide) rfl rfl
  have hrun : PassesFrom tokens 0 run :=
    .pass (by decide) (by decide) hfirst (.pass (by decide) (by decide) hsecond .done)
  have hboth := (Program.diagnostics_in_order tokens hterminated).2 run hrun
  exact ⟨hterminated, hscan, hrun, hboth.1.result, hboth.2 _ hscan⟩

end Lox
