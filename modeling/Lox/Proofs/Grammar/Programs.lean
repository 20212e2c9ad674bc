/-
Programs are read statement by statement, with nothing carried over.

The main result describes the reading of a program by its first step. Either the tokens in front
are a statement, and the rest is read as if it stood alone; or they are none, one diagnostic is
given about one token, and the reading goes on, again as if the rest stood alone, at a place that
the fault's place determines. Since the rest is read from scratch, the nesting that is left at the
beginning of a statement is always the whole of it, also behind a fault that came from using it up.

The place where the reading goes on is found by skipping tokens one by one. It is described here
without the skipping: it is the least index behind the fault where a statement is likely to begin.
-/
import Mathlib.Order.Bounds.Defs
import Lox.Proofs.Grammar.Statements

set_option autoImplicit false

namespace Lox

/-! ## Where the reading goes on -/

/-- The keywords that a statement is likely to begin with. -/
def statementKeywords : List Keyword :=
  [.class_, .fun_, .var_, .for_, .if_, .while_, .print_, .return_]

/-- A statement is likely to begin at this index: here the tokens end, or a semicolon stands in
front of it, or a keyword that begins a statement stands at it. -/
def MayBeginAt (tokens : List Token) (j : Nat) : Prop :=
  ∃ t, tokens[j]? = some t ∧
    (t.isEnding = true ∨
      (∃ before, tokens[j - 1]? = some before ∧ before.meaning = .symbol .semicolon) ∨
      ∃ k ∈ statementKeywords, t.meaning = .keyword k)

/-- After a fault at index `i` the reading goes on at index `j`. Only at the end of the tokens this
is the same place. -/
def ResumesAt (tokens : List Token) (i j : Nat) : Prop :=
  ∃ t, tokens[i]? = some t ∧
    if t.isEnding then j = i else IsLeast {j | i < j ∧ MayBeginAt tokens j} j

/-- Recovery only skips. -/
theorem recover_suffix (tokens : List Token) : recover tokens <:+ tokens := by
  cases tokens with
  | nil => exact List.suffix_refl _
  | cons t rest => exact (resume_suffix t rest).trans (List.suffix_cons _ _)

theorem Token.beginsStatement_iff (t : Token) :
    t.beginsStatement = true ↔ ∃ k ∈ statementKeywords, t.meaning = .keyword k := by
  rw [beginsStatement]
  cases t.meaning with
  | keyword k => cases k <;> simp [statementKeywords]
  | _ => simp

section Recovery

variable {tail : List Token} {marker : Token}

/-- The token behind `front`. -/
theorem getElem?_length_append {front rest : List Token} {t : Token} :
    (front ++ t :: rest)[front.length]? = some t := by
  rw [List.getElem?_append_right (Nat.le_refl _), Nat.sub_self]
  rfl

/-- The token behind that one. -/
theorem getElem?_length_succ_append {front rest : List Token} {t u : Token} :
    (front ++ t :: u :: rest)[front.length + 1]? = some u := by
  rw [List.getElem?_append_right (Nat.le_add_right _ 1), Nat.add_sub_cancel_left]
  rfl

theorem drop_length_succ_append {front rest : List Token} {t : Token} :
    (front ++ t :: rest).drop (front.length + 1) = rest := by
  rw [List.drop_append, List.drop_of_length_le (Nat.le_add_right _ 1), Nat.add_sub_cancel_left]
  rfl

/-- The token at an index of the body or just behind it is the first one from there on. -/
theorem getElem?_append_eq_some_iff {body : List Token} {i : Nat} (hi : i ≤ body.length)
    (rest : List Token) (t : Token) :
    (body ++ rest)[i]? = some t ↔ ∃ more, body.drop i ++ rest = t :: more := by
  rw [← List.head?_drop, List.drop_append_of_le_length hi, List.head?_eq_some_iff]

/-- In front of an end marker there is always a first token, if only the marker. -/
theorem exists_first (rest : List Token) (marker : Token) (tail : List Token) :
    ∃ t more, rest ++ marker :: tail = t :: more := by
  cases rest <;> exact ⟨_, _, rfl⟩

/-- Where skipping stops. The induction follows the skipping, so the tokens passed over gather in
`front`; the one that was skipped last is what the index before looks at. -/
theorem resume_isLeast (hmarker : marker.isEnding = true) (last : Token) (more : List Token) :
    ∀ front : List Token, (∀ t ∈ more, t.isEnding = false) →
      ∃ j, (front ++ last :: (more ++ marker :: tail)).drop j = resume last more ++ marker :: tail ∧
        IsLeast {j | front.length < j ∧ MayBeginAt (front ++ last :: (more ++ marker :: tail)) j}
          j := by
  fun_induction resume last more with
  | case1 last =>
    intro front _
    refine ⟨front.length + 1, drop_length_succ_append, ⟨Nat.lt_succ_self _, marker, ?_⟩,
      fun j hj => hj.1⟩
    exact ⟨getElem?_length_succ_append, .inl hmarker⟩
  | case2 last t rest hstop =>
    intro front _
    -- the skipping stops for the same two reasons for which the index is a place to begin
    refine ⟨front.length + 1, drop_length_succ_append, ⟨Nat.lt_succ_self _, t,
      getElem?_length_succ_append, .inr ?_⟩, fun j hj => hj.1⟩
    rcases Bool.or_eq_true_iff.1 hstop with hsemicolon | hkeyword
    · have hmeaning := (last.kind_eq_symbol_iff _).1 (of_decide_eq_true hsemicolon)
      exact .inl ⟨last, getElem?_length_append, hmeaning⟩
    · exact .inr (t.beginsStatement_iff.1 hkeyword)
  | case3 last t rest hgo ih =>
    intro front hopen
    obtain ⟨j, hrest, ⟨hlt, hbegins⟩, hleast⟩ :=
      ih (front ++ [last]) fun u hu => hopen u (List.mem_cons_of_mem _ hu)
    rw [List.length_append, List.length_singleton] at hlt hleast
    rw [List.append_assoc, List.singleton_append] at hrest hbegins hleast
    refine ⟨j, hrest, ⟨Nat.lt_of_succ_lt hlt, hbegins⟩, ?_⟩
    -- the index of `t` itself is not the place, so every candidate lies behind it
    rintro j' ⟨hlt', hbegins'⟩
    by_cases hj' : j' = front.length + 1
    · subst hj'
      obtain ⟨u, hu, hcase⟩ := hbegins'
      obtain rfl : t = u := Option.some.inj (getElem?_length_succ_append.symm.trans hu)
      refine absurd ?_ hgo
      rcases hcase with hending | ⟨before, hbefore, hmeaning⟩ | hkeyword
      · rw [hopen t (List.mem_cons_self ..)] at hending
        exact absurd hending Bool.false_ne_true
      · obtain rfl : last = before :=
          Option.some.inj (getElem?_length_append.symm.trans hbefore)
        have hkind : last.kind = .symbol .semicolon := (last.kind_eq_symbol_iff _).2 hmeaning
        simp [hkind]
      · rw [t.beginsStatement_iff.2 hkeyword, Bool.or_true]
    · exact hleast ⟨by omega, hbegins'⟩

/-- Recovery from a fault at `front.length` goes on where `ResumesAt` says. -/
theorem recover_resumesAt (hmarker : marker.isEnding = true) (front rest : List Token)
    (hopen : ∀ t ∈ rest, t.isEnding = false) :
    ∃ j, (front ++ (rest ++ marker :: tail)).drop j = recover rest ++ marker :: tail ∧
      ResumesAt (front ++ (rest ++ marker :: tail)) front.length j := by
  cases rest with
  | nil =>
    refine ⟨front.length, List.drop_left .., marker, getElem?_length_append, ?_⟩
    rw [if_pos hmarker]
  | cons t more =>
    obtain ⟨j, hdrop, hleast⟩ :=
      resume_isLeast hmarker t more front
        fun u hu => hopen u (List.mem_cons_of_mem _ hu)
    have ht : ¬ t.isEnding = true := by
      rw [hopen t (List.mem_cons_self ..)]
      exact Bool.false_ne_true
    refine ⟨j, hdrop, t, getElem?_length_append, ?_⟩
    rw [if_neg ht]
    exact hleast

end Recovery

/-! ## Diagnostics -/

/-- The diagnostic about a token, which for an end marker is about the end. -/
def SyntaxFault.about (cause : SyntaxFault) (t : Token) : Diagnostic :=
  ⟨t.line, if t.isEnding then "at end" else t.lexeme, cause.message⟩

/-- The diagnostics of a reading, none if it read a program. -/
def Program.diagnostics : Attempt (List Diagnostic) Program → List Diagnostic
  | .error (.fault ds) => ds
  | _ => []

/-- A fault in a body is about the token at its place, the marker included. -/
theorem Misfit.diagnostic_eq_about {m : Misfit} {marker t : Token} {tail more : List Token}
    (hopen : ∀ u ∈ m.rest, u.isEnding = false) (hmarker : marker.isEnding = true)
    (hplace : m.rest ++ marker :: tail = t :: more) :
    m.diagnostic marker = m.cause.about t := by
  rw [diagnostic, SyntaxFault.about]
  cases hrest : m.rest with
  | nil =>
    obtain ⟨rfl, -⟩ : marker = t ∧ tail = more := by simpa [hrest] using hplace
    simp [hmarker]
  | cons u rest =>
    obtain ⟨rfl, -⟩ : u = t ∧ _ := by simpa [hrest] using hplace
    have hu : u.isEnding = false := hopen u (by simp [hrest])
    simp [hu]

/-! ## The first step -/

section FirstStep

variable {body tail : List Token} {marker : Token}

/-- The program of a terminated list is the one its body makes up. -/
theorem Program.ofTokens_append (hbody : ∀ t ∈ body, t.isEnding = false)
    (hmarker : marker.isEnding = true) (hlast : Terminated (marker :: tail)) :
    Program.ofTokens (body ++ marker :: tail) =
      (Program.readAll body).mapError fun ms => .fault (ms.map (·.diagnostic marker)) := by
  rw [ofTokens, TokenSequence.ofTokens_append hbody hmarker hlast]
  change (TokenSequence.program _).mapError _ = _
  rw [TokenSequence.program]
  cases Program.readAll body <;> rfl

theorem Program.diagnostics_append (hbody : ∀ t ∈ body, t.isEnding = false)
    (hmarker : marker.isEnding = true) (hlast : Terminated (marker :: tail)) :
    diagnostics (Program.ofTokens (body ++ marker :: tail)) =
      (misfits (Program.readAll body)).map (·.diagnostic marker) := by
  rw [Program.ofTokens_append hbody hmarker hlast]
  cases Program.readAll body <;> rfl

/-- The statement in front is read, and the rest as if it stood alone. -/
theorem Program.ofTokens_of_read_ok (hbody : ∀ t ∈ body, t.isEnding = false)
    (hmarker : marker.isEnding = true) (hlast : Terminated (marker :: tail)) {s : Stmt}
    {rest : List Token} (hread : Stmt.read body = .ok (s, rest)) :
    ∃ k, 1 ≤ k ∧ s.DerivesFrom ((body ++ marker :: tail).take k) ∧
      Terminated ((body ++ marker :: tail).drop k) ∧
      Program.ofTokens (body ++ marker :: tail) =
        (Program.ofTokens ((body ++ marker :: tail).drop k)).map (s :: ·) := by
  have hshorter := ((Stmt.read_suffix body).1 s rest hread).2
  obtain ⟨used, rfl, hderives⟩ := (Stmt.read_eq_ok_iff _ _ _).1 hread
  have hrest : ∀ t ∈ rest, t.isEnding = false := fun t ht => hbody t (List.mem_append_right _ ht)
  have htake : (used ++ rest ++ marker :: tail).take used.length = used := by
    rw [List.append_assoc, List.take_left]
  have hdrop : (used ++ rest ++ marker :: tail).drop used.length = rest ++ marker :: tail := by
    rw [List.append_assoc, List.drop_left]
  -- the marker is behind the rest too, so the rest is a terminated list of its own
  refine ⟨used.length, ?_, by rwa [htake], by rw [hdrop]; exact hlast.append rest, ?_⟩
  · rw [List.length_append] at hshorter
    omega
  · rw [hdrop, Program.ofTokens_append hbody hmarker hlast,
      Program.ofTokens_append hrest hmarker hlast, Program.readAll_of_read_ok hread]
    cases Program.readAll rest <;> rfl

/-- The fault in front is reported, and the reading goes on as if the rest stood alone. -/
theorem Program.ofTokens_of_read_error (hbody : ∀ t ∈ body, t.isEnding = false)
    (hmarker : marker.isEnding = true) (hlast : Terminated (marker :: tail)) (hne : body ≠ [])
    {m : Misfit} (hread : Stmt.read body = .error m) :
    ∃ i j t, i ≤ body.length ∧ m.rest = body.drop i ∧ (body ++ marker :: tail)[i]? = some t ∧
      ResumesAt (body ++ marker :: tail) i j ∧ Terminated ((body ++ marker :: tail).drop j) ∧
      Program.ofTokens (body ++ marker :: tail) = .error (.fault (m.cause.about t ::
        diagnostics (Program.ofTokens ((body ++ marker :: tail).drop j)))) := by
  obtain ⟨front, rfl⟩ := (Stmt.read_suffix body).2 m hread
  have hrest : ∀ t ∈ m.rest, t.isEnding = false :=
    fun t ht => hbody t (List.mem_append_right _ ht)
  have hrecover : ∀ t ∈ recover m.rest, t.isEnding = false :=
    fun t ht => hrest t ((recover_suffix m.rest).mem ht)
  -- where the body is used up, the fault is about the marker
  obtain ⟨t, more, hplace⟩ := exists_first m.rest marker tail
  obtain ⟨j, hdrop, hresumes⟩ := recover_resumesAt hmarker front m.rest hrest
  rw [← List.append_assoc] at hdrop hresumes
  refine ⟨front.length, j, t, ?_, (List.drop_left ..).symm, ?_, hresumes, ?_, ?_⟩
  · rw [List.length_append]
    exact Nat.le_add_right _ _
  · rw [List.append_assoc, hplace]
    exact getElem?_length_append
  · rw [hdrop]
    exact hlast.append _
  · rw [hdrop, Program.diagnostics_append hrecover hmarker hlast,
      Program.ofTokens_append hbody hmarker hlast, Program.readAll_of_read_error hne hread,
      ← Misfit.diagnostic_eq_about hrest hmarker hplace]
    rfl

/-- Where the reading of a statement fails, no tokens in front are a statement. -/
theorem Stmt.not_derivesFrom_take (hmarker : marker.isEnding = true) {m : Misfit}
    (hread : Stmt.read body = .error m) (k : Nat) (s : Stmt) :
    ¬ s.DerivesFrom ((body ++ marker :: tail).take k) := by
  intro hderives
  by_cases hk : k ≤ body.length
  · rw [List.take_append_of_le_length hk] at hderives
    have hok : Stmt.read body = .ok (s, body.drop k) :=
      (Stmt.read_eq_ok_iff _ _ _).2 ⟨body.take k, (List.take_append_drop k body).symm, hderives⟩
    simp [hok] at hread
  · -- the marker is among the tokens, and no statement has one
    obtain ⟨n, rfl⟩ : ∃ n, k = body.length + (n + 1) := ⟨k - body.length - 1, by omega⟩
    rw [List.take_length_add_append, List.take_succ_cons] at hderives
    have hopen := hderives.isEnding_eq_false marker (by simp)
    rw [hmarker] at hopen
    cases hopen

end FirstStep

/-- **Programs are read one statement at a time.** A terminated list is read as a program just when
the program derives from its body. An empty body is the empty program. Any other list begins with a
statement, which is put in front of what the rest is read as; or it does not, and then one
diagnostic about one token is put in front of those of the list from the place on where the reading
resumes. In both cases the rest is again a terminated list, read on its own. -/
theorem Program.ofTokens_compositional (tokens : List Token) (hterminated : Terminated tokens) :
    (∀ program : Program,
      Program.ofTokens tokens = .ok program ↔ program.DerivesFrom (untilMarker tokens)) ∧
    (tokens.head?.any Token.isEnding = true → Program.ofTokens tokens = .ok []) ∧
    (tokens.head?.any Token.isEnding = false →
      (∃ k s, 1 ≤ k ∧ Stmt.DerivesFrom s (tokens.take k) ∧ Terminated (tokens.drop k) ∧
        Program.ofTokens tokens = (Program.ofTokens (tokens.drop k)).map (s :: ·)) ∨
      (∃ i j t cause, (∀ k s, ¬ Stmt.DerivesFrom s (tokens.take k)) ∧
        i ≤ (untilMarker tokens).length ∧ tokens[i]? = some t ∧
        Stmt.read (untilMarker tokens) = .error ⟨cause, (untilMarker tokens).drop i⟩ ∧
        ResumesAt tokens i j ∧ Terminated (tokens.drop j) ∧
        Program.ofTokens tokens = .error (.fault (cause.about t ::
          diagnostics (Program.ofTokens (tokens.drop j)))))) := by
  obtain ⟨body, marker, tail, rfl, hbody, hmarker, htail⟩ := hterminated.split
  rw [untilMarker_append hbody hmarker]
  refine ⟨fun program => ?_, fun hhead => ?_, fun hhead => ?_⟩
  · rw [Program.ofTokens_append hbody hmarker htail, Attempt.mapError_eq_ok_iff,
      Program.readAll_eq_ok_iff]
  · cases body with
    | nil =>
      rw [Program.ofTokens_append hbody hmarker htail, Program.readAll_nil]
      rfl
    | cons t rest =>
      have ht : t.isEnding = false := hbody t (List.mem_cons_self ..)
      simp [ht] at hhead
  · have hne : body ≠ [] := by
      rintro rfl
      simp [hmarker] at hhead
    cases hread : Stmt.read body with
    | ok found =>
      obtain ⟨s, rest⟩ := found
      obtain ⟨k, hk⟩ := Program.ofTokens_of_read_ok hbody hmarker htail hread
      exact .inl ⟨k, s, hk⟩
    | error m =>
      obtain ⟨i, j, t, hi, hrest, hplace, hresumes, hterminated', hfails⟩ :=
        Program.ofTokens_of_read_error hbody hmarker htail hne hread
      refine .inr ⟨i, j, t, m.cause, Stmt.not_derivesFrom_take hmarker hread, hi, hplace, ?_,
        hresumes, hterminated', hfails⟩
      rw [← hrest]

/-- The program `print nil; !true;`, read whole. -/
theorem Program.ofTokens_compositional_two_statements :
    let bang : Token := ⟨.symbol .bang, "!", 2⟩
    let tokens : List Token :=
      [⟨.keyword .print_, "print", 1⟩, ⟨.keyword .nil_, "nil", 1⟩, ⟨.symbol .semicolon, ";", 1⟩,
        bang, ⟨.keyword .true_, "true", 2⟩, ⟨.symbol .semicolon, ";", 2⟩, .endMarker 2]
    Terminated tokens ∧ tokens.head?.any Token.isEnding = false ∧
      Program.ofTokens tokens =
        .ok [.print (.literal .nil), .expression (.unary bang (.literal (.bool true)))] := by
  intro bang tokens
  have hterminated : Terminated tokens := ⟨.endMarker 2, rfl, rfl⟩
  have hnil : (Expr.literal .nil).DerivesFrom [⟨.keyword .nil_, "nil", 1⟩] :=
    ⟨.literal _, by decide, .literal rfl⟩
  have htrue : (Expr.unary bang (.literal (.bool true))).DerivesFrom
      [bang, ⟨.keyword .true_, "true", 2⟩] :=
    ⟨.unary (.inr rfl) (.literal _) trivial, by decide, .unary (.literal rfl)⟩
  have hprint : Stmt.DerivesFrom (.print (.literal .nil)) (tokens.take 3) := .print rfl hnil rfl
  have hexpression : Stmt.DerivesFrom (.expression (.unary bang (.literal (.bool true))))
      ((tokens.drop 3).take 3) := .expression htrue rfl
  exact ⟨hterminated, rfl, ((Program.ofTokens_compositional tokens hterminated).1 _).2
    (.cons hprint (.cons hexpression .nil))⟩

end Lox
