/-
Where the nesting of an expression is refused.

What an expression is nested is said here by the paths of its tree: of the nodes from the root to a
leaf the pairs of parentheses and the unary operators count, and the binary operators do not. A
reading takes one level of nesting for every one of these, and one more for the literal at the
leaf, since a literal is an operand like any other. So the trees that are read are those on whose
paths fewer nodes count than the bound; where as many as the bound count on a path, the room is used
up in front of its leaf.

That the fault is then the nesting and no other is seen on the course of expressions. The course
without the bound goes to the end of what a canonical tree is written by, so the only thing it can
be stuck at is the bound.
-/
import Lox.Expr.Postorder
import Lox.Proofs.Grammar.Depth
import Lox.Proofs.Grammar.Earliest

set_option autoImplicit false

namespace Lox

/-! ## Paths -/

/-- The node is a pair of parentheses or a unary operator. -/
def Node.nests : Node → Bool
  | group | unary _ => true
  | literal _ | binary _ => false

namespace Expr

/-- The nodes from the root of the tree to one of its leaves. -/
inductive Path : Expr → List Node → Prop
  | literal (value : Value) : Path (literal value) [.literal value]
  | group {inner : Expr} {path : List Node} : Path inner path → Path (group inner) (.group :: path)
  | unary {operator : Token} {operand : Expr} {path : List Node} : Path operand path →
      Path (unary operator operand) (.unary operator :: path)
  | left {left right : Expr} {operator : Token} {path : List Node} : Path left path →
      Path (binary left operator right) (.binary operator :: path)
  | right {left right : Expr} {operator : Token} {path : List Node} : Path right path →
      Path (binary left operator right) (.binary operator :: path)

/-- No path is nested deeper than the tree. -/
theorem Path.countP_le {e : Expr} {path : List Node} (h : e.Path path) :
    path.countP Node.nests ≤ e.nesting := by
  induction h with
  | literal value => exact Nat.le_refl 0
  | group _ ih =>
    rw [List.countP_cons_of_pos rfl]
    exact Nat.succ_le_succ ih
  | unary _ ih =>
    rw [List.countP_cons_of_pos rfl]
    exact Nat.succ_le_succ ih
  | left _ ih =>
    rw [List.countP_cons_of_neg Bool.false_ne_true]
    exact Nat.le_trans ih (Nat.le_max_left _ _)
  | right _ ih =>
    rw [List.countP_cons_of_neg Bool.false_ne_true]
    exact Nat.le_trans ih (Nat.le_max_right _ _)

/-- Some path is nested as deep as the tree. -/
theorem exists_path (e : Expr) : ∃ path, e.Path path ∧ path.countP Node.nests = e.nesting := by
  induction e with
  | literal value => exact ⟨_, .literal value, rfl⟩
  | group inner ih =>
    obtain ⟨path, hpath, hcount⟩ := ih
    refine ⟨_, .group hpath, ?_⟩
    rw [List.countP_cons_of_pos rfl, hcount, nesting]
  | unary operator operand ih =>
    obtain ⟨path, hpath, hcount⟩ := ih
    refine ⟨_, .unary hpath, ?_⟩
    rw [List.countP_cons_of_pos rfl, hcount, nesting]
  | binary left operator right ihleft ihright =>
    obtain ⟨path, hpath, hcount⟩ := ihleft
    obtain ⟨path', hpath', hcount'⟩ := ihright
    rcases Nat.le_total left.nesting right.nesting with hle | hle
    · refine ⟨_, .right hpath', ?_⟩
      rw [List.countP_cons_of_neg Bool.false_ne_true, hcount', nesting, Nat.max_eq_right hle]
    · refine ⟨_, .left hpath, ?_⟩
      rw [List.countP_cons_of_neg Bool.false_ne_true, hcount, nesting, Nat.max_eq_left hle]

/-! ## The course without the bound -/

/-- The tokens of a canonical tree lead from the beginning of an expression to its end, however
deep it is nested. -/
theorem WrittenBy.at?_eq {e : Expr} {tokens : List Token} (h : e.WrittenBy tokens)
    (hcanonical : e.Canonical) : course.at? tokens = some (.behind []) := by
  -- a reader with enough room reads the tree, and the readers of all depths follow the course
  have hread := (Reader.expressions_exact (e.nesting + 1)).complete
    ⟨hcanonical, hcanonical.bindsAt_zero, Nat.lt_succ_self _⟩ h (stopsAt_nil 0)
  have hfollows : (Reader.operands (e.nesting + 1)).allLevels.Follows (e.nesting + 1) [] :=
    Reader.allLevels_follows (Reader.operands_follows _ [] (Nat.zero_add _)) rfl
  have hleads := hfollows.leads (tokens ++ [])
  rw [hread] at hleads
  obtain ⟨used, htokens, hwalk⟩ := hleads
  rw [List.append_nil, List.append_nil] at htokens
  rw [htokens]
  exact Course.at?_of_walk? hwalk

/-- Where a walk under the bound is stuck and the course goes on to the end, the bound is why. -/
theorem not_isWithin_of_stuckAt {front : List Token} {m : Misfit} {standing : Standing}
    (hwalk : course.walk? maxNesting (.before []) front = some standing)
    (hstuck : course.StuckAt maxNesting standing m)
    (hend : course.at? (front ++ m.rest) = some (.behind [])) :
    ¬ standing.isWithin maxNesting = true := by
  intro hwithin
  have hwithin' : (course.standing standing).isWithin maxNesting = true := hwithin
  have hfront : course.at? front = some standing := Course.at?_of_walk? hwalk
  rw [Course.at?] at hfront hend
  rw [List.foldlM_append, hfront] at hend
  cases hrest : m.rest with
  | nil =>
    rw [hrest] at hend
    exact hstuck.unfinished hrest (Option.some.inj hend)
  | cons t more =>
    -- the course goes on with the offending token, and the room for it is there
    have hrefused := hstuck.refused t (by rw [hrest]; rfl)
    rw [Course.step?, if_pos hwithin'] at hrefused
    rw [hrest] at hend
    change (List.foldlM course.next? standing (t :: more)) = _ at hend
    rw [List.foldlM_cons, hrefused] at hend
    cases hend

/-- The reading of a tree that is nested as deep as the bound fails for its nesting. -/
theorem WrittenBy.failsAt {e : Expr} {tokens : List Token}
    (h : e.WrittenBy (untilMarker tokens)) (hcanonical : e.Canonical)
    (hdeep : maxNesting ≤ e.nesting) : ∃ i, FailsAt tokens i .tooDeeplyNested := by
  cases hread : readAll (untilMarker tokens) with
  | ok other =>
    have hderives := (readAll_eq_ok_iff _ other).1 hread
    obtain rfl := h.unique hcanonical hderives.canonical hderives.written
    exact absurd hderives.shallow (Nat.not_lt.2 hdeep)
  | error m =>
    obtain ⟨front, standing, htokens, hwalk, hstuck⟩ := (readAll_follows _).2 hread
    have hend := h.at?_eq hcanonical
    rw [htokens] at hend
    have hwithin := not_isWithin_of_stuckAt hwalk hstuck hend
    have hcause : m.cause = .tooDeeplyNested := hstuck.cause.trans (if_neg hwithin)
    obtain ⟨i, hi, hrest⟩ := course_decides.exists_index hread
    refine ⟨i, hi, ?_⟩
    rw [hread, ← hcause, ← hrest]

/-! ## The limit -/

/-- At this token an operand has to begin, with as much open around it as the bound. -/
def RoomUsedUpAt (tokens : List Token) (i : Nat) : Prop :=
  ∃ around, course.at? (tokens.take i) = some (.before around) ∧ around.length = maxNesting

/-- A reading that fails for its nesting fails at the first token where no room is left. -/
theorem FailsAt.isLeast {tokens : List Token} (hterminated : Terminated tokens) {i : Nat}
    (h : FailsAt tokens i .tooDeeplyNested) : IsLeast {j | RoomUsedUpAt tokens j} i := by
  have hearliest := earliestFault hterminated
  obtain ⟨hi, hnone, standing, around, hat, hstanding, hlength⟩ := (hearliest.nested i).1 h
  obtain rfl : standing = .before around := hstanding
  refine ⟨⟨around, hat, hlength⟩, ?_⟩
  rintro j ⟨around', hat', hlength'⟩
  by_contra hlt
  -- an earlier place of this kind would be where the reading fails
  have hearlier : FailsAt tokens j .tooDeeplyNested := by
    refine (hearliest.nested j).2 ⟨by omega, fun k hk cause => hnone k (by omega) cause, ?_⟩
    exact ⟨_, around', hat', rfl, hlength'⟩
  exact hnone j (by omega) _ hearlier

/-- The tokens that a tree derives from are read as that tree, whatever stands behind the marker. -/
theorem DerivesFrom.ofTokens_eq {e : Expr} {tokens : List Token} (hterminated : Terminated tokens)
    (h : e.DerivesFrom (untilMarker tokens)) : Expr.ofTokens tokens = .ok e := by
  obtain ⟨body, marker, tail, rfl, hbody, hmarker, htail⟩ := hterminated.split
  rw [untilMarker_append hbody hmarker] at h
  rw [Expr.ofTokens_append hbody hmarker htail, (readAll_eq_ok_iff body e).2 h]
  rfl

/-- **The limit of nesting.** Of the tokens of a canonical tree, however deep it is nested, the tree
is read if on all of its paths fewer parentheses and unary operators stand than the bound. If as
many as the bound stand on some path, the expression is refused for its nesting, at the first token
where an operand has to begin with all of the bound open around it. Binary operators do not
count. -/
theorem nesting_limit (tokens : List Token) (e : Expr) (hterminated : Terminated tokens)
    (hcanonical : e.Canonical) (hwritten : e.WrittenBy (untilMarker tokens)) :
    ((∀ path, e.Path path → path.countP Node.nests < maxNesting) →
        Expr.ofTokens tokens = .ok e) ∧
      ((∃ path, e.Path path ∧ maxNesting ≤ path.countP Node.nests) →
        ∃ i t, tokens[i]? = some t ∧ IsLeast {j | RoomUsedUpAt tokens j} i ∧
          Expr.ofTokens tokens = .error (.fault (SyntaxFault.tooDeeplyNested.about t))) := by
  constructor
  · intro hshallow
    obtain ⟨path, hpath, hcount⟩ := e.exists_path
    have hnesting : e.nesting < maxNesting := hcount ▸ hshallow path hpath
    have hderives : e.DerivesFrom (untilMarker tokens) := ⟨hcanonical, hnesting, hwritten⟩
    exact hderives.ofTokens_eq hterminated
  · rintro ⟨path, hpath, hdeep⟩
    have hnesting : maxNesting ≤ e.nesting := Nat.le_trans hdeep hpath.countP_le
    obtain ⟨i, hfails⟩ := hwritten.failsAt hcanonical hnesting
    -- the diagnostic is about the token at the index where the reading fails
    obtain ⟨d, hrefused⟩ := hwritten.refused hcanonical hterminated hnesting
    obtain ⟨j, cause, t, hfails', ht, rfl⟩ := ((earliestFault hterminated).reported d).1 hrefused
    obtain ⟨rfl, rfl⟩ := (earliestFault hterminated).unique _ _ _ _ hfails hfails'
    exact ⟨i, t, ht, hfails.isLeast hterminated, hrefused⟩

/-! ## At the limit -/

/-- The sign of a negation. -/
def sign : Token := ⟨.symbol .minus, "-", 1⟩

/-- The tokens `- … - nil` with so many signs. -/
def negationTokens (n : Nat) : List Token :=
  List.replicate n sign ++ [⟨.keyword .nil_, "nil", 1⟩]

/-- The tree of these tokens. -/
def negations : Nat → Expr
  | 0 => literal .nil
  | n + 1 => unary sign (negations n)

theorem negations_nesting (n : Nat) : (negations n).nesting = n := by
  induction n with
  | zero => rfl
  | succ n ih => rw [negations, nesting, ih]

theorem negations_canonical (n : Nat) : (negations n).Canonical := by
  induction n with
  | zero => exact .literal .nil
  | succ n ih =>
    refine .unary (.inl rfl) ih ?_
    cases n <;> trivial

theorem negations_writtenBy (n : Nat) : (negations n).WrittenBy (negationTokens n) := by
  induction n with
  | zero => exact .literal rfl
  | succ n ih => exact .unary ih

/-- The tokens in front of an end marker are those of the tree. -/
theorem negations_writtenBy_untilMarker (n : Nat) :
    (negations n).WrittenBy (untilMarker (negationTokens n ++ [.endMarker 1])) := by
  have hwritten := negations_writtenBy n
  rw [untilMarker_append (hwritten.isEnding_eq_false (negations_canonical n)) rfl]
  exact hwritten

/-- One sign less than the bound is read, and as many signs as the bound are refused for their
nesting, at some token. -/
theorem nesting_limit_negations :
    Expr.ofTokens (negationTokens 199 ++ [.endMarker 1]) = .ok (negations 199) ∧
      ∃ i t, (negationTokens 200 ++ [.endMarker 1])[i]? = some t ∧
        IsLeast {j | RoomUsedUpAt (negationTokens 200 ++ [.endMarker 1]) j} i ∧
        Expr.ofTokens (negationTokens 200 ++ [.endMarker 1]) =
          .error (.fault (SyntaxFault.tooDeeplyNested.about t)) := by
  have hterminated : ∀ n, Terminated (negationTokens n ++ [.endMarker 1]) :=
    fun n => Terminated.append _ ⟨_, rfl, rfl⟩
  constructor
  · refine (nesting_limit _ _ (hterminated 199) (negations_canonical 199)
      (negations_writtenBy_untilMarker 199)).1 fun path hpath => ?_
    have hle := hpath.countP_le
    rw [negations_nesting] at hle
    exact Nat.lt_succ_of_le hle
  · refine (nesting_limit _ _ (hterminated 200) (negations_canonical 200)
      (negations_writtenBy_untilMarker 200)).2 ?_
    obtain ⟨path, hpath, hcount⟩ := (negations 200).exists_path
    refine ⟨path, hpath, ?_⟩
    rw [hcount, negations_nesting]
    exact Nat.le_refl 200

/-- **The bound itself is not reached.** It is not the case that every tree with no more
parentheses and unary operators on a path than the bound is read: as many signs as the bound in
front of `nil` are one operand too deep. -/
theorem bound_not_reached :
    ¬ ∀ (tokens : List Token) (e : Expr), Terminated tokens → e.Canonical →
      e.WrittenBy (untilMarker tokens) →
      (∀ path, e.Path path → path.countP Node.nests ≤ maxNesting) →
      Expr.ofTokens tokens = .ok e := by
  intro hreached
  have hterminated : Terminated (negationTokens 200 ++ [.endMarker 1]) :=
    Terminated.append _ ⟨_, rfl, rfl⟩
  have hwritten := negations_writtenBy_untilMarker 200
  have hread := hreached _ _ hterminated (negations_canonical 200) hwritten fun path hpath => by
    have hle := hpath.countP_le
    rwa [negations_nesting] at hle
  have hdeep : maxNesting ≤ (negations 200).nesting := by
    rw [negations_nesting]
    exact Nat.le_refl 200
  obtain ⟨d, hrefused⟩ := hwritten.refused (negations_canonical 200) hterminated hdeep
  rw [hread] at hrefused
  cases hrefused

end Expr

end Lox
