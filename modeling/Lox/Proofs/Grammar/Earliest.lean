/-
Faults are found as early as they can be.

A reading from left to right cannot know more at a token than what stood in front of it. The best it
can do is to fail at the first token with which the text has no good end any more, and that is where
the readings fail: what stands in front of the fault can be completed, and with the offending token
nothing can be. Which fault it is follows from the place alone. The bound on the nesting makes one
exception, and it is met exactly where an operand would begin with the whole of it open around.

The argument is about courses. A course is a way to decide a language if its walks to the end are
what is accepted and if what is not accepted has a fault where the walk is stuck; then everything
follows from there being only one way to walk, and a way on from every place that may be left.
Expressions and programs are the two instances.
-/
import Lox.Proofs.Grammar.Following
import Lox.Proofs.Grammar.Programs

set_option autoImplicit false

namespace Lox

/-! ## What is accepted, and where a reading fails -/

/-- In front of an end marker, these tokens are an expression. -/
def Expr.Accepted (body : List Token) : Prop :=
  (∀ t ∈ body, t.isEnding = false) ∧
    ∃ marker e, marker.isEnding = true ∧ Expr.ofTokens (body ++ [marker]) = .ok e

/-- In front of an end marker, these tokens are a program. -/
def Program.Accepted (body : List Token) : Prop :=
  (∀ t ∈ body, t.isEnding = false) ∧
    ∃ marker p, marker.isEnding = true ∧ Program.ofTokens (body ++ [marker]) = .ok p

/-- The reading of an expression fails for this cause at the token of this index, which is that of
the end marker if the tokens in front of it were used up. -/
def Expr.FailsAt (tokens : List Token) (i : Nat) (cause : SyntaxFault) : Prop :=
  i ≤ (untilMarker tokens).length ∧
    Expr.readAll (untilMarker tokens) = .error ⟨cause, (untilMarker tokens).drop i⟩

/-- The reading of a program fails first for this cause at the token of this index. -/
def Program.FailsAt (tokens : List Token) (i : Nat) (cause : SyntaxFault) : Prop :=
  i ≤ (untilMarker tokens).length ∧
    ∃ ms, Program.readAll (untilMarker tokens) =
      .error (⟨cause, (untilMarker tokens).drop i⟩ :: ms)

/-- What is reported first is a fault at the earliest token it can be found at, and its cause is
determined by the place. The place is where the course comes to over the tokens in front. -/
structure EarliestFault {σ : Type} (c : Course σ) (Accepted : List Token → Prop)
    (Reported : Diagnostic → Prop) (FailsAt : Nat → SyntaxFault → Prop) (tokens : List Token) :
    Prop where
  /-- The diagnostic is about the token of the index. -/
  reported : ∀ d, Reported d ↔
    ∃ i cause t, FailsAt i cause ∧ tokens[i]? = some t ∧ d = cause.about t
  /-- There is one index and one cause. -/
  unique : ∀ i j cause cause', FailsAt i cause → FailsAt j cause' → i = j ∧ cause = cause'
  /-- What stands in front of the fault is the front of something that is accepted. -/
  viable : ∀ i cause, FailsAt i cause → cause ≠ .tooDeeplyNested →
    ∃ more, Accepted (tokens.take i ++ more)
  /-- With the offending token it is not. At the end it is not complete. -/
  offends : ∀ i cause t, FailsAt i cause → cause ≠ .tooDeeplyNested → tokens[i]? = some t →
    if t.isEnding then ¬ Accepted (tokens.take i)
    else ∀ more, ¬ Accepted (tokens.take (i + 1) ++ more)
  /-- The nesting is at fault where there was no fault before and an operand has to begin with the
  whole bound open around it. -/
  nested : ∀ i, FailsAt i .tooDeeplyNested ↔
    i ≤ (untilMarker tokens).length ∧ (∀ j < i, ∀ cause, ¬ FailsAt j cause) ∧
      ∃ s around, c.at? (tokens.take i) = some s ∧ c.standing s = .before around ∧
        around.length = maxNesting
  /-- All other causes are those of the place. -/
  caused : ∀ i cause, FailsAt i cause → cause ≠ .tooDeeplyNested →
    ∃ s, c.at? (tokens.take i) = some s ∧ cause = (c.standing s).fault (c.missing s)

/-! ## Courses that decide -/

/-- The course decides which tokens are accepted and where the first fault in others is. -/
structure Course.Decides {σ : Type} (c : Course σ) (accepts : List Token → Prop)
    (faults : List Token → Misfit → Prop) : Prop where
  total : ∀ body, accepts body ∨ ∃ m, faults body m
  -- what is accepted is a walk to an end, and a fault is where a walk is stuck
  walks : ∀ {body}, accepts body → ∃ s, c.walk? maxNesting c.start body = some s ∧ c.Complete s
  sticks : ∀ {body m}, faults body m → ∃ front s, body = front ++ m.rest ∧
    c.walk? maxNesting c.start front = some s ∧ c.StuckAt maxNesting s m
  -- from the states of a walk there is a way to an end, unless there is no room to go on
  sound : ∀ {front s}, c.walk? maxNesting c.start front = some s →
    (c.standing s).Sound maxNesting
  completes : ∀ {s}, (c.standing s).Sound maxNesting →
    (c.standing s).isWithin maxNesting = true →
    ∃ more s', c.walk? maxNesting s more = some s' ∧ c.Complete s'
  leaves : ∀ {s}, c.Complete s → (c.standing s).isWithin maxNesting = true
  missing_ne : ∀ s, c.missing s ≠ .tooDeeplyNested

namespace Course

variable {σ : Type} {c : Course σ} {accepts : List Token → Prop}
  {faults : List Token → Misfit → Prop} {body : List Token} {s : σ} {i : Nat}

/-- Where a walk is stuck it does not go on, and it is not at its end. -/
theorem StuckAt.not_walk {m : Misfit} {first : σ} {front : List Token}
    (hstuck : c.StuckAt maxNesting s m) (hfront : c.walk? maxNesting first front = some s) {s' : σ}
    (hwalk : c.walk? maxNesting first (front ++ m.rest) = some s') : ¬ c.Complete s' := by
  obtain ⟨middle, hmiddle, hrest⟩ := walk?_left hwalk
  obtain rfl : s = middle := Option.some.inj (hfront.symm.trans hmiddle)
  cases hm : m.rest with
  | nil =>
    rw [hm] at hrest
    obtain rfl : s = s' := Option.some.inj hrest
    exact hstuck.unfinished hm
  | cons t more =>
    rw [hm, walk?_cons, hstuck.refused t (by rw [hm]; rfl)] at hrest
    cases hrest

/-- The tokens up to the offending one are not the front of any walk. -/
theorem StuckAt.walk?_cons_eq_none {m : Misfit} {first : σ} {front : List Token} {t : Token}
    (hstuck : c.StuckAt maxNesting s m) (hfront : c.walk? maxNesting first front = some s)
    (ht : t ∈ m.rest.head?) (more : List Token) :
    c.walk? maxNesting first (front ++ t :: more) = none := by
  rw [walk?_append, hfront, Option.bind_some, walk?_cons, hstuck.refused t ht]
  rfl

/-- A walk is stuck in one place only, if in any. -/
theorem StuckAt.unique {m m' : Misfit} {front front' : List Token} {s' : σ}
    (hstuck : c.StuckAt maxNesting s m) (hstuck' : c.StuckAt maxNesting s' m')
    (hfront : c.walk? maxNesting c.start front = some s)
    (hfront' : c.walk? maxNesting c.start front' = some s')
    (hbody : front ++ m.rest = front' ++ m'.rest) : front = front' ∧ m = m' := by
  -- where one of the two goes further than the other, the other one was not stuck
  have hshort : ∀ {m m' : Misfit} {front further : List Token} {s s' : σ},
      c.StuckAt maxNesting s m → c.walk? maxNesting c.start front = some s →
      c.walk? maxNesting c.start (front ++ further) = some s' →
      m.rest = further ++ m'.rest → further = [] := by
    intro m m' front further s s' hstuck hfront hfurther hrest
    cases further with
    | nil => rfl
    | cons t more =>
      rw [hstuck.walk?_cons_eq_none hfront (by rw [hrest]; rfl)] at hfurther
      cases hfurther
  obtain rfl : front = front' := by
    rcases List.append_eq_append_iff.1 hbody with ⟨further, rfl, hrest⟩ | ⟨further, rfl, hrest⟩
    · rw [hshort hstuck hfront hfront' hrest, List.append_nil]
    · rw [hshort hstuck' hfront' hfront hrest, List.append_nil]
  obtain rfl : s = s' := Option.some.inj (hfront.symm.trans hfront')
  obtain ⟨cause, rest⟩ := m
  obtain ⟨cause', rest'⟩ := m'
  obtain rfl : rest = rest' := List.append_cancel_left hbody
  obtain rfl : cause = cause' := hstuck.cause.trans hstuck'.cause.symm
  exact ⟨rfl, rfl⟩

namespace Decides

variable (h : c.Decides accepts faults)
include h

/-- In front of an operand without room, nothing fits. -/
theorem stuckAt_of_not_isWithin (hwithin : ¬ (c.standing s).isWithin maxNesting = true)
    (rest : List Token) : c.StuckAt maxNesting s ⟨.tooDeeplyNested, rest⟩ where
  cause := (if_neg hwithin).symm
  refused _ _ := if_neg hwithin
  unfinished _ hcomplete := hwithin (h.leaves hcomplete)

/-- The nesting is at fault only where there is no room for an operand. -/
theorem isWithin_iff {m : Misfit} (hstuck : c.StuckAt maxNesting s m) :
    (c.standing s).isWithin maxNesting = true ↔ m.cause ≠ .tooDeeplyNested := by
  rw [hstuck.cause, Standing.faultWithin]
  split
  · rename_i hwithin
    refine iff_of_true hwithin ?_
    cases c.standing s with
    | before around => exact SyntaxFault.noConfusion
    | behind around =>
      rw [Standing.fault]
      split
      · exact SyntaxFault.noConfusion
      · exact h.missing_ne s
  · rename_i hwithin
    exact iff_of_false hwithin fun hne => hne rfl

/-- What is accepted is what the course walks over to an end. -/
theorem accepts_iff :
    accepts body ↔ ∃ s, c.walk? maxNesting c.start body = some s ∧ c.Complete s := by
  refine ⟨h.walks, ?_⟩
  rintro ⟨s, hwalk, hcomplete⟩
  rcases h.total body with haccepts | ⟨m, hfaults⟩
  · exact haccepts
  · obtain ⟨front, s', rfl, hfront, hstuck⟩ := h.sticks hfaults
    exact absurd hcomplete (hstuck.not_walk hfront hwalk)

/-- The fault is at an index just when the course is stuck there. -/
theorem faults_iff {cause : SyntaxFault} :
    faults body ⟨cause, body.drop i⟩ ↔ ∃ s, c.walk? maxNesting c.start (body.take i) = some s ∧
      c.StuckAt maxNesting s ⟨cause, body.drop i⟩ := by
  constructor
  · intro hfaults
    obtain ⟨front, s, hbody, hfront, hstuck⟩ := h.sticks hfaults
    have htake : body.take i ++ body.drop i = front ++ body.drop i := by
      rw [List.take_append_drop]
      exact hbody
    rw [List.append_cancel_right htake]
    exact ⟨s, hfront, hstuck⟩
  · rintro ⟨s, hfront, hstuck⟩
    rcases h.total body with haccepts | ⟨m, hfaults⟩
    · obtain ⟨s', hwalk, hcomplete⟩ := h.walks haccepts
      rw [← List.take_append_drop i body] at hwalk
      exact absurd hcomplete (hstuck.not_walk hfront hwalk)
    · obtain ⟨front, s', hbody, hfront', hstuck'⟩ := h.sticks hfaults
      have hsame : body.take i ++ body.drop i = front ++ m.rest := by
        rw [List.take_append_drop]
        exact hbody
      obtain ⟨-, rfl⟩ := hstuck.unique hstuck' hfront hfront' hsame
      exact hfaults

/-! ### What follows -/

variable {cause : SyntaxFault}

/-- Every fault is at an index. -/
theorem exists_index {m : Misfit} (hfaults : faults body m) :
    ∃ i ≤ body.length, m.rest = body.drop i := by
  obtain ⟨front, s, rfl, -, -⟩ := h.sticks hfaults
  refine ⟨front.length, ?_, (List.drop_left ..).symm⟩
  rw [List.length_append]
  exact Nat.le_add_right _ _

theorem faults_unique {j : Nat} {cause' : SyntaxFault} (hi : i ≤ body.length)
    (hj : j ≤ body.length) (hfaults : faults body ⟨cause, body.drop i⟩)
    (hfaults' : faults body ⟨cause', body.drop j⟩) : i = j ∧ cause = cause' := by
  obtain ⟨s, hwalk, hstuck⟩ := h.faults_iff.1 hfaults
  obtain ⟨s', hwalk', hstuck'⟩ := h.faults_iff.1 hfaults'
  have hbody : body.take i ++ body.drop i = body.take j ++ body.drop j := by
    rw [List.take_append_drop, List.take_append_drop]
  obtain ⟨hfront, hmisfit⟩ := hstuck.unique hstuck' hwalk hwalk' hbody
  have hlength := congrArg List.length hfront
  rw [List.length_take_of_le hi, List.length_take_of_le hj] at hlength
  exact ⟨hlength, congrArg Misfit.cause hmisfit⟩

/-- What stands in front of a fault can be completed. -/
theorem exists_accepts (hfaults : faults body ⟨cause, body.drop i⟩)
    (hcause : cause ≠ .tooDeeplyNested) : ∃ more, accepts (body.take i ++ more) := by
  obtain ⟨s, hwalk, hstuck⟩ := h.faults_iff.1 hfaults
  obtain ⟨more, s', hmore, hcomplete⟩ :=
    h.completes (h.sound hwalk) ((h.isWithin_iff hstuck).2 hcause)
  exact ⟨more, h.accepts_iff.2 ⟨s', walk?_trans hwalk hmore, hcomplete⟩⟩

/-- What is at fault is not accepted. -/
theorem not_accepts (hfaults : faults body ⟨cause, body.drop i⟩) : ¬ accepts body := by
  obtain ⟨s, hwalk, hstuck⟩ := h.faults_iff.1 hfaults
  intro haccepts
  obtain ⟨s', hwalk', hcomplete⟩ := h.walks haccepts
  rw [← List.take_append_drop i body] at hwalk'
  exact hstuck.not_walk hwalk hwalk' hcomplete

/-- What stands up to the offending token cannot be completed. -/
theorem not_accepts_append {t : Token} {rest : List Token} (hrest : body.drop i = t :: rest)
    (hfaults : faults body ⟨cause, body.drop i⟩) (more : List Token) :
    ¬ accepts (body.take i ++ t :: more) := by
  obtain ⟨s, hwalk, hstuck⟩ := h.faults_iff.1 hfaults
  intro haccepts
  obtain ⟨s', hwalk', -⟩ := h.walks haccepts
  rw [hstuck.walk?_cons_eq_none hwalk (by rw [hrest]; rfl)] at hwalk'
  cases hwalk'

/-- The place determines the cause. -/
theorem cause_eq (hfaults : faults body ⟨cause, body.drop i⟩)
    (hcause : cause ≠ .tooDeeplyNested) :
    ∃ s, c.at? (body.take i) = some s ∧ cause = (c.standing s).fault (c.missing s) := by
  obtain ⟨s, hwalk, hstuck⟩ := h.faults_iff.1 hfaults
  have hwithin := (h.isWithin_iff hstuck).2 hcause
  refine ⟨s, at?_of_walk? hwalk, ?_⟩
  rw [← Standing.faultWithin_of_isWithin hwithin]
  exact hstuck.cause

/-- Where no fault lies in front of an index, a walk under the bound comes to it. -/
theorem exists_walk (hi : i ≤ body.length)
    (hnone : ∀ j < i, ∀ cause, ¬ faults body ⟨cause, body.drop j⟩) :
    ∃ s, c.walk? maxNesting c.start (body.take i) = some s := by
  -- an accepted text is a walk as a whole; another one is a walk as far as its fault
  rcases h.total body with haccepts | ⟨m, hfaults⟩
  · obtain ⟨s, hwalk, -⟩ := h.walks haccepts
    rw [← List.take_append_drop i body] at hwalk
    obtain ⟨middle, hmiddle, -⟩ := walk?_left hwalk
    exact ⟨middle, hmiddle⟩
  · obtain ⟨front, s, rfl, hwalk, -⟩ := h.sticks hfaults
    have hle : i ≤ front.length := by
      refine Nat.le_of_not_lt fun hlt => hnone front.length hlt m.cause ?_
      rw [List.drop_left]
      exact hfaults
    rw [← List.take_append_drop i front] at hwalk
    obtain ⟨middle, hmiddle, -⟩ := walk?_left hwalk
    rw [List.take_append_of_le_length hle]
    exact ⟨middle, hmiddle⟩

/-- The nesting is at fault where there is no other fault before and no room for the operand. -/
theorem faults_tooDeeplyNested_iff (hi : i ≤ body.length) :
    faults body ⟨.tooDeeplyNested, body.drop i⟩ ↔
      (∀ j < i, ∀ cause, ¬ faults body ⟨cause, body.drop j⟩) ∧
        ∃ s around, c.at? (body.take i) = some s ∧ c.standing s = .before around ∧
          around.length = maxNesting := by
  constructor
  · intro hfaults
    refine ⟨fun j hj cause hfaults' => ?_, ?_⟩
    · obtain ⟨hsame, -⟩ := h.faults_unique hi (Nat.le_trans (Nat.le_of_lt hj) hi) hfaults hfaults'
      exact Nat.lt_irrefl _ (hsame ▸ hj)
    · obtain ⟨s, hwalk, hstuck⟩ := h.faults_iff.1 hfaults
      have hwithin : ¬ (c.standing s).isWithin maxNesting = true :=
        fun hwithin => (h.isWithin_iff hstuck).1 hwithin rfl
      -- no more than the bound is ever open, and here it is not less
      have hbounded := (h.sound hwalk).bounded
      cases hstanding : c.standing s with
      | before around =>
        rw [hstanding, Standing.isWithin, decide_eq_true_eq, Nat.not_lt] at hwithin
        rw [hstanding] at hbounded
        exact ⟨s, around, at?_of_walk? hwalk, hstanding, Nat.le_antisymm hbounded hwithin⟩
      | behind around => exact absurd (by rw [hstanding]; rfl) hwithin
  · rintro ⟨hnone, s, around, hs, hstanding, hlength⟩
    obtain ⟨s', hwalk⟩ := h.exists_walk hi hnone
    obtain rfl : s = s' := Option.some.inj (hs.symm.trans (at?_of_walk? hwalk))
    have hwithin : ¬ (c.standing s).isWithin maxNesting = true := by
      rw [hstanding, Standing.isWithin, decide_eq_true_eq, hlength]
      exact Nat.lt_irrefl _
    exact h.faults_iff.2 ⟨s, hwalk, h.stuckAt_of_not_isWithin hwithin _⟩

end Decides

/-! ## The earliest fault -/

section Reported

variable {Accepted : List Token → Prop} {Reported : Diagnostic → Prop}
  {FailsAt : Nat → SyntaxFault → Prop} {tail : List Token} {marker : Token}

/-- What a course decides fails as early as it can. The hypotheses say what is accepted, where the
first fault is, and what is reported about it, in terms of the tokens in front of the marker. -/
theorem Decides.earliestFault (h : c.Decides accepts faults)
    (hbody : ∀ t ∈ body, t.isEnding = false) (hmarker : marker.isEnding = true)
    (haccepted : ∀ tokens, Accepted tokens ↔ accepts tokens)
    (hfails : ∀ i cause, FailsAt i cause ↔
      i ≤ body.length ∧ faults body ⟨cause, body.drop i⟩)
    (hreported : ∀ d, Reported d ↔ ∃ m, faults body m ∧ d = m.diagnostic marker) :
    EarliestFault c Accepted Reported FailsAt (body ++ marker :: tail) := by
  have htake : ∀ {i}, i ≤ body.length → (body ++ marker :: tail).take i = body.take i :=
    fun hi => List.take_append_of_le_length hi
  have hplace : ∀ {i t}, i ≤ body.length →
      ((body ++ marker :: tail)[i]? = some t ↔
        ∃ more, body.drop i ++ marker :: tail = t :: more) :=
    fun hi => getElem?_append_eq_some_iff hi _ _
  have hopen : ∀ i, ∀ t ∈ body.drop i, t.isEnding = false :=
    fun i t ht => hbody t (List.mem_of_mem_drop ht)
  have habout : ∀ {i cause t}, i ≤ body.length → (body ++ marker :: tail)[i]? = some t →
      (⟨cause, body.drop i⟩ : Misfit).diagnostic marker = cause.about t := by
    intro i cause t hi ht
    obtain ⟨more, hmore⟩ := (hplace hi).1 ht
    exact Misfit.diagnostic_eq_about (hopen i) hmarker hmore
  constructor
  case reported =>
    intro d
    rw [hreported]
    constructor
    · rintro ⟨⟨cause, rest⟩, hfaults, rfl⟩
      obtain ⟨i, hle, rfl⟩ : ∃ i ≤ body.length, rest = body.drop i := h.exists_index hfaults
      obtain ⟨t, more, hmore⟩ := exists_first (body.drop i) marker tail
      have ht := (hplace hle).2 ⟨more, hmore⟩
      exact ⟨i, cause, t, (hfails i cause).2 ⟨hle, hfaults⟩, ht, habout hle ht⟩
    · rintro ⟨i, cause, t, hi, ht, rfl⟩
      obtain ⟨hle, hfaults⟩ := (hfails i cause).1 hi
      exact ⟨_, hfaults, (habout hle ht).symm⟩
  case unique =>
    intro i j cause cause' hi hj
    obtain ⟨hle, hfaults⟩ := (hfails i cause).1 hi
    obtain ⟨hle', hfaults'⟩ := (hfails j cause').1 hj
    exact h.faults_unique hle hle' hfaults hfaults'
  case viable =>
    intro i cause hi hcause
    obtain ⟨hle, hfaults⟩ := (hfails i cause).1 hi
    obtain ⟨more, hmore⟩ := h.exists_accepts hfaults hcause
    rw [htake hle]
    exact ⟨more, (haccepted _).2 hmore⟩
  case offends =>
    intro i cause t hi _ ht
    obtain ⟨hle, hfaults⟩ := (hfails i cause).1 hi
    obtain ⟨more, hmore⟩ := (hplace hle).1 ht
    -- the offending token is the marker where the body is used up
    cases hrest : body.drop i with
    | nil =>
      obtain rfl : marker = t := by simpa [hrest] using congrArg List.head? hmore
      rw [if_pos hmarker, htake hle, haccepted,
        List.take_of_length_le (List.drop_eq_nil_iff.1 hrest)]
      exact h.not_accepts hfaults
    | cons u rest =>
      obtain rfl : u = t := by simpa [hrest] using congrArg List.head? hmore
      have hu : ¬ u.isEnding = true := by
        rw [hopen i u (by simp [hrest])]
        exact Bool.false_ne_true
      rw [if_neg hu, List.take_add_one, htake hle, ht]
      intro further
      rw [haccepted, List.append_assoc]
      exact h.not_accepts_append hrest hfaults further
  case nested =>
    intro i
    rw [hfails, untilMarker_append hbody hmarker]
    refine and_congr_right fun hle => ?_
    have hearlier : (∀ j < i, ∀ cause, ¬ FailsAt j cause) ↔
        ∀ j < i, ∀ cause, ¬ faults body ⟨cause, body.drop j⟩ := by
      refine forall₂_congr fun j hj => forall_congr' fun cause => not_congr ?_
      rw [hfails, and_iff_right (Nat.le_trans (Nat.le_of_lt hj) hle)]
    rw [h.faults_tooDeeplyNested_iff hle, hearlier, htake hle]
  case caused =>
    intro i cause hi hcause
    obtain ⟨hle, hfaults⟩ := (hfails i cause).1 hi
    rw [htake hle]
    exact h.cause_eq hfaults hcause

end Reported

end Course

/-! ## Expressions and programs -/

/-- The faults of a program come with the first of them. -/
theorem Program.readAll_cases (tokens : List Token) :
    (∃ p, readAll tokens = .ok p) ∨ ∃ m ms, readAll tokens = .error (m :: ms) := by
  rw [readAll]
  split
  · exact .inl ⟨_, rfl⟩
  · exact .inr ⟨_, _, rfl⟩

theorem Expr.course_decides :
    Expr.course.Decides (fun body => ∃ e, Expr.readAll body = .ok e)
      fun body m => Expr.readAll body = .error m where
  total body := by
    cases Expr.readAll body with
    | ok e => exact .inl ⟨e, rfl⟩
    | error m => exact .inr ⟨m, rfl⟩
  walks := by
    rintro body ⟨e, hread⟩
    exact ⟨_, (Expr.readAll_follows body).1 hread, rfl⟩
  sticks {body m} hfaults := (Expr.readAll_follows body).2 hfaults
  sound hwalk := Course.walk?_keeps (P := fun standing => standing.Sound maxNesting)
    (fun _ _ _ hsound hstep => hsound.step hstep) (Standing.sound_start _) hwalk
  completes hsound hwithin := by
    obtain ⟨more, hmore⟩ := Standing.exists_completion hsound hwithin
    exact ⟨more, _, hmore, rfl⟩
  leaves := by
    rintro s rfl
    rfl
  missing_ne _ := SyntaxFault.noConfusion

theorem Program.course_decides :
    Program.course.Decides (fun body => ∃ p, Program.readAll body = .ok p)
      fun body m => ∃ ms, Program.readAll body = .error (m :: ms) where
  total := Program.readAll_cases
  walks := by
    rintro body ⟨p, hread⟩
    exact ⟨_, (Program.readAll_follows body).1 hread, rfl⟩
  sticks := by
    rintro body m ⟨ms, hfaults⟩
    exact (Program.readAll_follows body).2 hfaults
  sound hwalk := Course.walk?_keeps (P := fun spot => spot.standing.Sound maxNesting)
    (fun _ _ _ hsound hstep => Spot.sound_step hsound hstep) (Standing.sound_start _) hwalk
  completes hsound hwithin := by
    obtain ⟨more, hmore⟩ := Spot.exists_completion hsound hwithin
    exact ⟨more, _, hmore, rfl⟩
  leaves := by
    rintro s rfl
    rfl
  missing_ne spot := by
    cases spot with
    | front => exact SyntaxFault.noConfusion
    | inside prints standing => cases prints <;> exact SyntaxFault.noConfusion

/-- A terminated list is accepted just when its body is read. -/
theorem Expr.accepted_iff (body : List Token) :
    Expr.Accepted body ↔ ∃ e, Expr.readAll body = .ok e := by
  constructor
  · rintro ⟨hbody, marker, e, hmarker, he⟩
    rw [Expr.ofTokens_append hbody hmarker ⟨marker, rfl, hmarker⟩] at he
    exact ⟨e, Attempt.mapError_eq_ok_iff.1 he⟩
  · rintro ⟨e, hread⟩
    have hderives := (Expr.readAll_eq_ok_iff body e).1 hread
    have hbody := hderives.written.isEnding_eq_false hderives.canonical
    refine ⟨hbody, .endMarker 1, e, rfl, ?_⟩
    rw [Expr.ofTokens_append hbody rfl ⟨.endMarker 1, rfl, rfl⟩, hread]
    rfl

theorem Program.accepted_iff (body : List Token) :
    Program.Accepted body ↔ ∃ p, Program.readAll body = .ok p := by
  constructor
  · rintro ⟨hbody, marker, p, hmarker, hp⟩
    rw [Program.ofTokens_append hbody hmarker ⟨marker, rfl, hmarker⟩] at hp
    exact ⟨p, Attempt.mapError_eq_ok_iff.1 hp⟩
  · rintro ⟨p, hread⟩
    have hbody := ((Program.readAll_eq_ok_iff body p).1 hread).isEnding_eq_false
    refine ⟨hbody, .endMarker 1, p, rfl, ?_⟩
    rw [Program.ofTokens_append hbody rfl ⟨.endMarker 1, rfl, rfl⟩, hread]
    rfl

theorem Expr.earliestFault {tokens : List Token} (hterminated : Terminated tokens) :
    EarliestFault Expr.course Expr.Accepted (fun d => Expr.ofTokens tokens = .error (.fault d))
      (Expr.FailsAt tokens) tokens := by
  obtain ⟨body, marker, tail, rfl, hbody, hmarker, htail⟩ := hterminated.split
  refine Expr.course_decides.earliestFault hbody hmarker Expr.accepted_iff (fun i cause => ?_)
    fun d => ?_
  · rw [Expr.FailsAt, untilMarker_append hbody hmarker]
  · rw [Expr.ofTokens_append hbody hmarker htail, Attempt.mapError_eq_fault_iff_exists]

theorem Program.earliestFault {tokens : List Token} (hterminated : Terminated tokens) :
    EarliestFault Program.course Program.Accepted
      (fun d => ∃ ds, Program.ofTokens tokens = .error (.fault (d :: ds)))
      (Program.FailsAt tokens) tokens := by
  obtain ⟨body, marker, tail, rfl, hbody, hmarker, htail⟩ := hterminated.split
  refine Program.course_decides.earliestFault hbody hmarker Program.accepted_iff
    (fun i cause => ?_) fun d => ?_
  · rw [Program.FailsAt, untilMarker_append hbody hmarker]
  · rw [Program.ofTokens_append hbody hmarker htail]
    simp only [Attempt.mapError_eq_fault_iff_exists]
    constructor
    · rintro ⟨ds, ms, hread, hds⟩
      obtain ⟨m, ms, rfl, rfl, -⟩ := List.map_eq_cons_iff.1 hds.symm
      exact ⟨m, ⟨ms, hread⟩, rfl⟩
    · rintro ⟨m, ⟨ms, hread⟩, rfl⟩
      exact ⟨_, _, hread, rfl⟩

/-- **Faults are found as early as they can be.** A list that is not read as an expression is
reported to be at fault at the first token with which nothing in front of the fault can be completed
any more, with the cause that belongs to the place; and so is, first of all, a list that is not read
as a program. -/
theorem faults_earliest (tokens : List Token) (hterminated : Terminated tokens) :
    EarliestFault Expr.course Expr.Accepted (fun d => Expr.ofTokens tokens = .error (.fault d))
        (Expr.FailsAt tokens) tokens ∧
      EarliestFault Program.course Program.Accepted
        (fun d => ∃ ds, Program.ofTokens tokens = .error (.fault (d :: ds)))
        (Program.FailsAt tokens) tokens := by
  constructor
  · exact Expr.earliestFault hterminated
  · exact Program.earliestFault hterminated

/-- In `( nil true` a parenthesis is missing in front of `true`: the first two tokens can still be
completed, and the three cannot. -/
theorem faults_earliest_unclosed :
    let paren : Token := ⟨.symbol .leftParen, "(", 1⟩
    let first : Token := ⟨.keyword .nil_, "nil", 1⟩
    let second : Token := ⟨.keyword .true_, "true", 2⟩
    let tokens : List Token := [paren, first, second, .endMarker 2]
    Terminated tokens ∧ Expr.FailsAt tokens 2 .missingRightParen ∧
      Expr.ofTokens tokens = .error (.fault ⟨2, "true", "Expect ')' after expression."⟩) ∧
      (∃ more, Expr.Accepted ([paren, first] ++ more)) ∧
      ∀ more, ¬ Expr.Accepted ([paren, first, second] ++ more) := by
  intro paren first second tokens
  have hterminated : Terminated tokens := ⟨.endMarker 2, rfl, rfl⟩
  have hearliest := (faults_earliest tokens hterminated).1
  have hfails : Expr.FailsAt tokens 2 .missingRightParen := by
    refine ⟨by decide, Expr.course_decides.faults_iff.2 ⟨.behind [.parentheses], rfl, ?_⟩⟩
    refine ⟨rfl, fun t ht => ?_, fun hnil => by cases hnil⟩
    obtain rfl : second = t := Option.some.inj ht
    rfl
  refine ⟨hterminated, hfails, ?_, ?_, ?_⟩
  · exact (hearliest.reported _).2 ⟨2, _, second, hfails, rfl, rfl⟩
  · exact hearliest.viable 2 _ hfails SyntaxFault.noConfusion
  · exact hearliest.offends 2 _ second hfails SyntaxFault.noConfusion rfl

end Lox
