/-
What is read depends on kinds only.

Two lists whose tokens have pairwise the same kinds are read to the same end, whatever their
lexemes, lines and payloads are. What they are read as differs only in what the tokens are: there
is one plan, a tree with the indices of tokens in it, and each list makes its own tree of it. Faults
are about the tokens of the same indices, and the reading goes on behind them at the same places.

That paired lists are read in step is shown in `Lox.Proofs.Grammar.Lockstep`. This file puts indices
in place of the pairs.
-/
import Lox.Proofs.Grammar.Following
import Lox.Proofs.Grammar.Lockstep
import Lox.Proofs.Grammar.Places

set_option autoImplicit false

namespace Lox

/-! ## Plans -/

/-- A tree with the index of a token in place of each literal and each operator. -/
inductive Plan
  | literal (i : Nat)
  | group (inner : Plan)
  | unary (i : Nat) (operand : Plan)
  | binary (left : Plan) (i : Nat) (right : Plan)
  deriving DecidableEq, Repr

/-- A statement with the plan of its expression. -/
inductive Stmt.Plan
  | expression (plan : Lox.Plan)
  | print (plan : Lox.Plan)
  deriving DecidableEq, Repr

/-- The tree that the tokens make of the plan. -/
def Plan.build (tokens : List Token) : Plan → Option Expr
  | literal i => do
    let t ← tokens[i]?
    let value ← t.literal?
    return .literal value
  | group inner => do
    let inner ← inner.build tokens
    return .group inner
  | unary i operand => do
    let operator ← tokens[i]?
    let operand ← operand.build tokens
    return .unary operator operand
  | binary left i right => do
    let left ← left.build tokens
    let operator ← tokens[i]?
    let right ← right.build tokens
    return .binary left operator right

def Stmt.Plan.build (tokens : List Token) : Stmt.Plan → Option Stmt
  | expression plan => do
    let e ← plan.build tokens
    return .expression e
  | print plan => do
    let e ← plan.build tokens
    return .print e

/-- The number of tokens that the tree is written by. -/
def Expr.width : Expr → Nat
  | literal _ => 1
  | group inner => inner.width + 2
  | unary _ operand => operand.width + 1
  | binary left _ right => left.width + 1 + right.width

/-- The plan of a tree whose first token has this index. -/
def Expr.plan (start : Nat) : Expr → Plan
  | literal _ => .literal start
  | group inner => .group (inner.plan (start + 1))
  | unary _ operand => .unary start (operand.plan (start + 1))
  | binary left _ right =>
    .binary (left.plan start) (start + left.width) (right.plan (start + left.width + 1))

/-- The number of tokens of the statement, with its semicolon and its keyword. -/
def Stmt.width : Stmt → Nat
  | expression e => e.width + 1
  | print e => e.width + 2

def Stmt.plan (start : Nat) : Stmt → Stmt.Plan
  | expression e => .expression (e.plan start)
  | print e => .print (e.plan (start + 1))

/-- The plans of the statements, the first token of the first one having this index. -/
def Program.plan (start : Nat) : Program → List Stmt.Plan
  | [] => []
  | s :: program => s.plan start :: plan (start + s.width) program

/-! ### Trees have their plans -/

theorem Expr.WrittenBy.length_eq_width {e : Expr} {used : List Token} (h : e.WrittenBy used) :
    used.length = e.width := by
  induction h with
  | literal _ => rfl
  | group _ _ _ ih => simp [Expr.width, ih]
  | unary _ ih => simp [Expr.width, ih]
  | binary _ _ ihleft ihright => simp [Expr.width, ihleft, ihright]; omega

/-- The tokens that write a tree make it of its plan, wherever they stand. -/
theorem Expr.WrittenBy.build_plan {e : Expr} {used : List Token} (h : e.WrittenBy used) :
    ∀ front back : List Token, (e.plan front.length).build (front ++ (used ++ back)) = some e := by
  induction h with
  | @literal value t hmeaning =>
    intro front back
    have ht : (front ++ ([t] ++ back))[front.length]? = some t := getElem?_length_append
    rw [Expr.plan, Plan.build, ht]
    simp [(t.literal?_eq_some_iff value).2 hmeaning]
  | @group inner first last body _ _ _ ih =>
    intro front back
    have hinner := ih (front ++ [first]) ([last] ++ back)
    rw [List.length_append, List.length_singleton, List.append_assoc] at hinner
    rw [Expr.plan, Plan.build]
    simp only [List.cons_append, List.append_assoc, List.nil_append] at hinner ⊢
    rw [hinner]
    rfl
  | @unary operator operand body _ ih =>
    intro front back
    have hoperand := ih (front ++ [operator]) back
    rw [List.length_append, List.length_singleton, List.append_assoc] at hoperand
    have ht : (front ++ operator :: (body ++ back))[front.length]? = some operator :=
      getElem?_length_append
    rw [Expr.plan, Plan.build]
    simp only [List.cons_append, List.nil_append] at hoperand ⊢
    rw [ht, hoperand]
    rfl
  | @binary left right operator leftBody rightBody hleft _ ihleft ihright =>
    intro front back
    -- the right tree begins behind the tokens of the left one and the operator
    have hbuilt := ihleft front (operator :: rightBody ++ back)
    have hbuilt' := ihright (front ++ leftBody ++ [operator]) back
    have ht : (front ++ leftBody ++ operator :: (rightBody ++ back))[(front ++ leftBody).length]? =
        some operator := getElem?_length_append
    rw [List.length_append, hleft.length_eq_width] at ht
    rw [List.length_append, List.length_append, List.length_singleton,
      hleft.length_eq_width] at hbuilt'
    rw [Expr.plan, Plan.build]
    simp only [List.cons_append, List.append_assoc, List.nil_append] at hbuilt hbuilt' ht ⊢
    rw [hbuilt, ht, hbuilt']
    rfl

theorem Stmt.DerivesFrom.length_eq_width {s : Stmt} {used : List Token} (h : s.DerivesFrom used) :
    used.length = s.width := by
  cases h with
  | expression he _ => simp [Stmt.width, he.written.length_eq_width]
  | print _ he _ => simp [Stmt.width, he.written.length_eq_width]

theorem Stmt.DerivesFrom.build_plan {s : Stmt} {used : List Token} (h : s.DerivesFrom used)
    (front back : List Token) : (s.plan front.length).build (front ++ (used ++ back)) = some s := by
  cases h with
  | @expression e body last he _ =>
    have hbuilt := he.written.build_plan front ([last] ++ back)
    rw [Stmt.plan, Stmt.Plan.build, List.append_assoc, hbuilt]
    rfl
  | @print e first last body _ he _ =>
    have hbuilt := he.written.build_plan (front ++ [first]) ([last] ++ back)
    rw [List.length_append, List.length_singleton, List.append_assoc] at hbuilt
    rw [Stmt.plan, Stmt.Plan.build]
    simp only [List.cons_append, List.append_assoc, List.nil_append] at hbuilt ⊢
    rw [hbuilt]
    rfl

/-- The tokens of a program make its statements of their plans. -/
theorem Program.DerivesFrom.build_plan {program : Program} {used : List Token}
    (h : Program.DerivesFrom program used) :
    ∀ front back : List Token, (Program.plan front.length program).mapM
      (Stmt.Plan.build (front ++ (used ++ back))) = some program := by
  induction h with
  | nil =>
    intro front back
    rfl
  | @cons s program used more hs _ ih =>
    intro front back
    have hstatement := hs.build_plan front (more ++ back)
    have hrest := ih (front ++ used) back
    rw [List.length_append, hs.length_eq_width, List.append_assoc] at hrest
    rw [Program.plan, List.mapM_cons, List.append_assoc, hstatement, Option.bind_eq_bind,
      Option.bind_some, hrest]
    rfl

/-! ### Paired trees have one plan -/

section Paired

variable {P : Pairing}

theorem Expr.Parallel.plan_eq {e other : Expr} (h : e.Parallel P other) :
    e.width = other.width ∧ ∀ start, e.plan start = other.plan start := by
  induction h with
  | literal _ _ _ => exact ⟨rfl, fun _ => rfl⟩
  | group _ ih =>
    refine ⟨?_, fun start => ?_⟩
    · rw [Expr.width, Expr.width, ih.1]
    · rw [Expr.plan, Expr.plan, ih.2]
  | unary _ _ ih =>
    refine ⟨?_, fun start => ?_⟩
    · rw [Expr.width, Expr.width, ih.1]
    · rw [Expr.plan, Expr.plan, ih.2]
  | binary _ _ _ ihleft ihright =>
    refine ⟨?_, fun start => ?_⟩
    · rw [Expr.width, Expr.width, ihleft.1, ihright.1]
    · rw [Expr.plan, Expr.plan, ihleft.1, ihleft.2, ihright.2]

theorem Stmt.Parallel.plan_eq {s other : Stmt} (h : s.Parallel P other) :
    s.width = other.width ∧ ∀ start, s.plan start = other.plan start := by
  cases h with
  | expression he =>
    refine ⟨?_, fun start => ?_⟩
    · rw [Stmt.width, Stmt.width, he.plan_eq.1]
    · rw [Stmt.plan, Stmt.plan, he.plan_eq.2]
  | print he =>
    refine ⟨?_, fun start => ?_⟩
    · rw [Stmt.width, Stmt.width, he.plan_eq.1]
    · rw [Stmt.plan, Stmt.plan, he.plan_eq.2]

theorem Program.plan_eq {program other : Program}
    (h : List.Forall₂ (Stmt.Parallel P) program other) :
    ∀ start, Program.plan start program = Program.plan start other := by
  induction h with
  | nil => exact fun _ => rfl
  | cons hs _ ih =>
    intro start
    rw [Program.plan, Program.plan, hs.plan_eq.1, hs.plan_eq.2, ih]

end Paired

/-! ## Lists of one kind -/

/-- Tokens of one kind are a pair. -/
def Pairing.sameKind : Pairing where
  Pairs t u := t.kind = u.kind
  kind_eq h := h

section Lists

variable {P : Pairing} {tokens others : List Token}

theorem Pairing.isEnding_eq {t u : Token} (h : P.Pairs t u) : t.isEnding = u.isEnding := by
  rw [Token.isEnding, Token.isEnding, P.kind_eq h]

theorem untilMarker_pairs (h : List.Forall₂ P.Pairs tokens others) :
    List.Forall₂ P.Pairs (untilMarker tokens) (untilMarker others) := by
  induction h with
  | nil => exact .nil
  | @cons t u rest more htu hrest ih =>
    rw [untilMarker, untilMarker] at ih ⊢
    rw [List.takeWhile_cons, List.takeWhile_cons, P.isEnding_eq htu]
    cases u.isEnding with
    | true => exact .nil
    | false => exact .cons htu ih

theorem Terminated.pairs (hterminated : Terminated tokens)
    (h : List.Forall₂ P.Pairs tokens others) : Terminated others := by
  obtain ⟨marker, hmarker, hending⟩ := hterminated
  rw [← List.forall₂_reverse_iff] at h
  rw [List.getLast?_eq_head?_reverse] at hmarker
  -- the last tokens are the first ones from behind
  cases hlast : tokens.reverse with
  | nil => simp [hlast] at hmarker
  | cons t rest =>
    rw [hlast] at h hmarker
    obtain rfl : t = marker := Option.some.inj hmarker
    obtain ⟨u, more, htu, -, hothers⟩ := List.forall₂_cons_left_iff.1 h
    refine ⟨u, ?_, P.isEnding_eq htu ▸ hending⟩
    rw [List.getLast?_eq_head?_reverse, hothers]
    rfl

end Lists

/-! ## Indices in place of pairs -/

/-- Trees made of one plan, each of its own tokens. -/
structure Expr.SamePlan (tokens others : List Token) (e other : Expr) : Prop where
  plan_eq : e.plan 0 = other.plan 0
  built : (e.plan 0).build tokens = some e
  built_other : (other.plan 0).build others = some other

/-- Programs made of the same plans, each of its own tokens. -/
structure Program.SamePlan (tokens others : List Token) (program other : Program) : Prop where
  plan_eq : plan 0 program = plan 0 other
  built : (plan 0 program).mapM (Stmt.Plan.build tokens) = some program
  built_other : (plan 0 other).mapM (Stmt.Plan.build others) = some other

/-- Diagnostics of one cause about the tokens of one index. -/
def Diagnostic.SamePlace (tokens others : List Token) (d other : Diagnostic) : Prop :=
  ∃ (i : Nat) (cause : SyntaxFault) (t u : Token), tokens[i]? = some t ∧ others[i]? = some u ∧
    d = cause.about t ∧ other = cause.about u

/-- Both are faults, and related. -/
inductive Failure.Faults {ε δ : Type} (F : ε → δ → Prop) : Failure ε → Failure δ → Prop
  | fault {e : ε} {d : δ} : F e d → Faults F (.fault e) (.fault d)

section Lists

variable {P : Pairing} {body body' tail tail' : List Token} {marker marker' : Token}

theorem Misfit.Parallel.samePlace {m m' : Misfit} (h : m.Parallel P m')
    (hpairs : List.Forall₂ P.Pairs body body')
    (hbody : ∀ t ∈ body, t.isEnding = false) (hbody' : ∀ t ∈ body', t.isEnding = false)
    (hmarker : marker.isEnding = true) (hmarker' : marker'.isEnding = true)
    (hm : m.rest <:+ body) (hm' : m'.rest <:+ body') :
    Diagnostic.SamePlace (body ++ marker :: tail) (body' ++ marker' :: tail')
      (m.diagnostic marker) (m'.diagnostic marker') := by
  obtain ⟨front, rfl⟩ := hm
  obtain ⟨front', rfl⟩ := hm'
  -- as much was used up of both, since as much is left
  have hlength : front'.length = front.length := by
    have hwhole := hpairs.length_eq
    have hrest := h.rest.length_eq
    rw [List.length_append, List.length_append] at hwhole
    omega
  -- at the index there is the first token of the rest, or the marker
  obtain ⟨t, more, ht⟩ := exists_first m.rest marker tail
  obtain ⟨u, more', hu⟩ := exists_first m'.rest marker' tail'
  refine ⟨front.length, m.cause, t, u, ?_, ?_, ?_, ?_⟩
  · rw [List.append_assoc, ht]
    exact getElem?_length_append
  · rw [List.append_assoc, hu, ← hlength]
    exact getElem?_length_append
  · exact Misfit.diagnostic_eq_about (fun v hv => hbody v (List.mem_append_right _ hv)) hmarker ht
  · rw [h.cause]
    exact Misfit.diagnostic_eq_about (fun v hv => hbody' v (List.mem_append_right _ hv)) hmarker' hu

theorem Misfit.samePlaces {ms ms' : List Misfit} (h : List.Forall₂ (Misfit.Parallel P) ms ms')
    (hpairs : List.Forall₂ P.Pairs body body')
    (hbody : ∀ t ∈ body, t.isEnding = false) (hbody' : ∀ t ∈ body', t.isEnding = false)
    (hmarker : marker.isEnding = true) (hmarker' : marker'.isEnding = true)
    (hms : ∀ m ∈ ms, m.rest <:+ body) (hms' : ∀ m ∈ ms', m.rest <:+ body') :
    List.Forall₂ (Diagnostic.SamePlace (body ++ marker :: tail) (body' ++ marker' :: tail'))
      (ms.map (·.diagnostic marker)) (ms'.map (·.diagnostic marker')) := by
  induction h with
  | nil => exact .nil
  | cons hm _ ih =>
    rw [List.forall_mem_cons] at hms hms'
    refine .cons ?_ (ih hms.2 hms'.2)
    exact hm.samePlace hpairs hbody hbody' hmarker hmarker' hms.1 hms'.1

theorem Expr.readAll_alike (h : List.Forall₂ P.Pairs body body') :
    Alike (Misfit.Parallel P) (Expr.Parallel P) (readAll body) (readAll body') := by
  rw [readAll, readAll]
  have halike := Expr.reader_inStep.alike h
  cases hread : Expr.reader.read body with
  | error m =>
    rw [hread] at halike
    obtain ⟨m', hread', hm⟩ := halike.error_left
    rw [hread']
    exact .error hm
  | ok found =>
    rw [hread] at halike
    obtain ⟨⟨other, rest'⟩, hread', hother, hrest⟩ := halike.ok_left
    rw [hread']
    obtain ⟨e, rest⟩ := found
    cases hrest with
    | nil => exact .ok hother
    | cons htu hmore => exact .error ⟨rfl, .cons htu hmore⟩

/-- The faults of a program are at places in its tokens. -/
theorem Program.suffix_of_readAll_error (hbody : ∀ t ∈ body, t.isEnding = false)
    {ms : List Misfit} (h : readAll body = .error ms) : ∀ m ∈ ms, m.rest <:+ body := by
  intro m hm
  have hstart : ReadTo (body ++ [.endMarker 1]) (untilMarker (body ++ [.endMarker 1])) := .start
  rw [untilMarker_append hbody rfl] at hstart
  have hsuffix := (hstart.misfits m (by rwa [h])).suffix
  rwa [untilMarker_append hbody rfl] at hsuffix

/-- Reading goes on at the same place in both lists. -/
theorem recover_drop (h : List.Forall₂ P.Pairs body body') (i : Nat) :
    ∃ j, recover (body.drop i) = body.drop j ∧ recover (body'.drop i) = body'.drop j := by
  have hpairs := recover_parallel (List.forall₂_drop i h)
  have hsuffix : ∀ tokens : List Token, recover (tokens.drop i) =
      tokens.drop (tokens.length - (recover (tokens.drop i)).length) := by
    intro tokens
    exact List.suffix_iff_eq_drop.1 ((recover_suffix _).trans (List.drop_suffix i tokens))
  -- recovery leaves as much of the one list as of the other
  refine ⟨body.length - (recover (body.drop i)).length, hsuffix body, ?_⟩
  rw [h.length_eq, hpairs.length_eq]
  exact hsuffix body'

end Lists

/-- **Kinds determine the reading.** Where the tokens of two lists have pairwise the same kinds,
both lists are read as expressions of one plan, or neither is, and then for one cause at one index.
The same holds for programs, statement by statement and fault by fault, and behind a fault the
reading of both goes on at one place. -/
theorem kinds_determine_reading (tokens others : List Token) (hterminated : Terminated tokens)
    (hkinds : List.Forall₂ (fun t u => t.kind = u.kind) tokens others) :
    Alike (Failure.Faults (Diagnostic.SamePlace tokens others)) (Expr.SamePlan tokens others)
        (Expr.ofTokens tokens) (Expr.ofTokens others) ∧
      Alike (Failure.Faults (List.Forall₂ (Diagnostic.SamePlace tokens others)))
        (Program.SamePlan tokens others) (Program.ofTokens tokens) (Program.ofTokens others) ∧
      ∀ i, ∃ j, recover ((untilMarker tokens).drop i) = (untilMarker tokens).drop j ∧
        recover ((untilMarker others).drop i) = (untilMarker others).drop j := by
  have hterminated' := hterminated.pairs (P := .sameKind) hkinds
  have hpairs := untilMarker_pairs (P := .sameKind) hkinds
  obtain ⟨body, marker, tail, rfl, hbody, hmarker, htail⟩ := hterminated.split
  obtain ⟨body', marker', tail', rfl, hbody', hmarker', htail'⟩ := hterminated'.split
  rw [untilMarker_append hbody hmarker, untilMarker_append hbody' hmarker'] at hpairs
  refine ⟨?_, ?_, ?_⟩
  · rw [Expr.ofTokens_append hbody hmarker htail, Expr.ofTokens_append hbody' hmarker' htail']
    refine (Expr.readAll_alike hpairs).mapError (fun m m' hm hm' hmm' => ?_)
      fun e other he hother heq => ?_
    · obtain ⟨front, -, hfront, -⟩ := (Expr.readAll_follows body).2 hm
      obtain ⟨front', -, hfront', -⟩ := (Expr.readAll_follows body').2 hm'
      exact .fault (hmm'.samePlace hpairs hbody hbody' hmarker hmarker' ⟨front, hfront.symm⟩
        ⟨front', hfront'.symm⟩)
    · have hwritten := ((Expr.readAll_eq_ok_iff body e).1 he).written
      have hwritten' := ((Expr.readAll_eq_ok_iff body' other).1 hother).written
      exact ⟨heq.plan_eq.2 0, hwritten.build_plan [] (marker :: tail),
        hwritten'.build_plan [] (marker' :: tail')⟩
  · rw [Program.ofTokens_append hbody hmarker htail, Program.ofTokens_append hbody' hmarker' htail']
    refine (Program.readAll_alike hpairs).mapError (fun ms ms' hms hms' hmm' => ?_)
      fun program other hprogram hother heq => ?_
    · exact .fault (Misfit.samePlaces hmm' hpairs hbody hbody' hmarker hmarker'
        (Program.suffix_of_readAll_error hbody hms) (Program.suffix_of_readAll_error hbody' hms'))
    · have hderives := (Program.readAll_eq_ok_iff body program).1 hprogram
      have hderives' := (Program.readAll_eq_ok_iff body' other).1 hother
      exact ⟨Program.plan_eq heq 0, hderives.build_plan [] (marker :: tail),
        hderives'.build_plan [] (marker' :: tail')⟩
  · rw [untilMarker_append hbody hmarker, untilMarker_append hbody' hmarker']
    exact recover_drop hpairs

/-- The expression `!"a"`, and what is read where another text and other lexemes and lines stand in
its place. -/
theorem kinds_determine_reading_negated_text :
    let bang : Token := ⟨.symbol .bang, "!", 1⟩
    let other : Token := ⟨.symbol .bang, "nil", 7⟩
    let tokens : List Token := [bang, ⟨.string "a", "\"a\"", 1⟩, .endMarker 1]
    let others : List Token := [other, ⟨.string "b", ";", 3⟩, .endMarker 0]
    Terminated tokens ∧ List.Forall₂ (fun t u => t.kind = u.kind) tokens others ∧
      Expr.ofTokens tokens = .ok (.unary bang (.literal (.string "a"))) ∧
      Expr.ofTokens others = .ok (.unary other (.literal (.string "b"))) := by
  intro bang other tokens others
  have hterminated : Terminated tokens := ⟨.endMarker 1, rfl, rfl⟩
  have hkinds : List.Forall₂ (fun t u => t.kind = u.kind) tokens others :=
    .cons rfl (.cons rfl (.cons rfl .nil))
  have hderives : (Expr.unary bang (.literal (.string "a"))).DerivesFrom
      [bang, ⟨.string "a", "\"a\"", 1⟩] :=
    ⟨.unary (.inr rfl) (.literal _) trivial, by decide, .unary (.literal rfl)⟩
  have hread : Expr.ofTokens tokens = .ok (.unary bang (.literal (.string "a"))) := by
    have hopen := hderives.written.isEnding_eq_false hderives.canonical
    refine (Expr.ofTokens_append hopen rfl ⟨.endMarker 1, rfl, rfl⟩).trans ?_
    rw [(Expr.readAll_eq_ok_iff _ _).2 hderives]
    rfl
  have halike := (kinds_determine_reading tokens others hterminated hkinds).1
  rw [hread] at halike
  obtain ⟨e, he, hsame⟩ := halike.ok_left
  -- the plan is that of the first tree, and the second list says what becomes of it
  have hbuilt := hsame.built_other
  rw [← hsame.plan_eq] at hbuilt
  obtain rfl : Expr.unary other (.literal (.string "b")) = e := Option.some.inj hbuilt
  exact ⟨hterminated, hkinds, hread, he⟩

end Lox
