/-
Expressions are accepted exactly when the grammar derives them.

The readers' exactness, applied to whole token lists. What an expression reads is the body of the
list, so the lexeme of the end marker and everything behind it are out of play; what is left over
in the body makes the reading fail. The bound on the nesting is part of the derivation, which is
why a tree that is merely too deep is no tree here; that the tokens determine the tree holds
without the bound.
-/
import Lox.Proofs.Attempts
import Lox.Proofs.Grammar.Reading
import Lox.Proofs.Token.Terminated

set_option autoImplicit false

namespace Lox

/-! ## Reading all tokens -/

/-- The tokens of a canonical tree determine it, however deeply it is nested: the reader for the
greater depth of the two reads both. -/
theorem Expr.WrittenBy.unique {e other : Expr} {tokens : List Token} (he : e.Canonical)
    (hother : other.Canonical) (hwritten : e.WrittenBy tokens)
    (hwritten' : other.WrittenBy tokens) : e = other := by
  have hexact := Reader.expressions_exact (max e.nesting other.nesting + 1)
  have hread := hexact.complete
    ⟨he, he.bindsAt_zero, Nat.lt_succ_of_le (Nat.le_max_left _ _)⟩ hwritten (stopsAt_nil 0)
  have hread' := hexact.complete
    ⟨hother, hother.bindsAt_zero, Nat.lt_succ_of_le (Nat.le_max_right _ _)⟩ hwritten'
    (stopsAt_nil 0)
  rw [hread] at hread'
  exact (Prod.mk.inj (Except.ok.inj hread')).1

theorem Expr.reader_exact : Expr.reader.Exact maxNesting 0 :=
  Reader.expressions_exact maxNesting

theorem Expr.readAll_eq_ok_iff (tokens : List Token) (e : Expr) :
    Expr.readAll tokens = .ok e ↔ e.DerivesFrom tokens := by
  rw [readAll]
  constructor
  · intro hread
    split at hread
    · simp at hread
    · rename_i e' hread'
      obtain rfl : e' = e := by simpa using hread
      obtain ⟨hfits, -, used, rfl, hwritten⟩ := reader_exact.sound hread'
      exact ⟨hfits.canonical, hfits.shallow, by simpa using hwritten⟩
    · simp at hread
  · rintro ⟨hcanonical, hshallow, hwritten⟩
    have hread := reader_exact.complete ⟨hcanonical, hcanonical.bindsAt_zero, hshallow⟩ hwritten
      (stopsAt_nil 0)
    rw [List.append_nil] at hread
    rw [hread]

/-- The expression of a terminated list is the one its body makes up. -/
theorem Expr.ofTokens_append {body tail : List Token} {marker : Token}
    (hbody : ∀ t ∈ body, t.isEnding = false) (hmarker : marker.isEnding = true)
    (hlast : Terminated (marker :: tail)) :
    Expr.ofTokens (body ++ marker :: tail) =
      (Expr.readAll body).mapError fun m => .fault (m.diagnostic marker) := by
  rw [ofTokens, TokenSequence.ofTokens_append hbody hmarker hlast]
  change (TokenSequence.expression _).mapError _ = _
  rw [TokenSequence.expression]
  cases Expr.readAll body <;> rfl

/-- With an end marker behind them, tokens that a tree derives from are read as that tree. -/
theorem Expr.DerivesFrom.ofTokens {e : Expr} {body : List Token} (he : e.DerivesFrom body)
    (line : Nat) : Expr.ofTokens (body ++ [.endMarker line]) = .ok e := by
  rw [Expr.ofTokens_append (he.written.isEnding_eq_false he.canonical) rfl ⟨_, rfl, rfl⟩,
    (Expr.readAll_eq_ok_iff body e).2 he]
  rfl

/-! ## The grammar decides -/

/-- **Expressions are exactly the grammar's.** A terminated list is read as a tree just when the
tree derives from its body; the tree is the only canonical one that these tokens write, at any
depth; and a list that no tree derives from is refused with a diagnostic. -/
theorem Expr.ofTokens_exact (tokens : List Token) (hterminated : Terminated tokens) :
    (∀ e, Expr.ofTokens tokens = .ok e ↔ e.DerivesFrom (untilMarker tokens)) ∧
      (∀ e other : Expr, e.Canonical → other.Canonical → e.WrittenBy (untilMarker tokens) →
        other.WrittenBy (untilMarker tokens) → e = other) ∧
      ((∀ e : Expr, ¬ e.DerivesFrom (untilMarker tokens)) →
        ∃ d, Expr.ofTokens tokens = .error (.fault d)) := by
  obtain ⟨body, marker, tail, rfl, hbody, hmarker, htail⟩ := hterminated.split
  rw [untilMarker_append hbody hmarker, Expr.ofTokens_append hbody hmarker htail]
  refine ⟨fun e => ?_, fun e other he hother h h' => Expr.WrittenBy.unique he hother h h', ?_⟩
  · rw [Attempt.mapError_eq_ok_iff, Expr.readAll_eq_ok_iff]
  · intro hnone
    cases hread : Expr.readAll body with
    | ok e => exact absurd ((Expr.readAll_eq_ok_iff body e).1 hread) (hnone e)
    | error m => exact ⟨m.diagnostic marker, rfl⟩

/-- The expression `! (nil == true)`, with an end marker in front of a tail that is never read. -/
theorem Expr.ofTokens_exact_negated_group :
    let bang : Token := ⟨.symbol .bang, "!", 1⟩
    let equals : Token := ⟨.symbol .equalEqual, "==", 2⟩
    let tokens : List Token :=
      [bang, ⟨.symbol .leftParen, "(", 1⟩, ⟨.keyword .nil_, "nil", 1⟩, equals,
        ⟨.keyword .true_, "true", 2⟩, ⟨.symbol .rightParen, ")", 2⟩, .endMarker 2,
        ⟨.symbol .star, "*", 3⟩, .endMarker 3]
    let tree : Expr := .unary bang (.group (.binary (.literal .nil) equals (.literal (.bool true))))
    Terminated tokens ∧ Expr.ofTokens tokens = .ok tree := by
  intro bang equals tokens tree
  have hterminated : Terminated tokens := ⟨.endMarker 3, rfl, rfl⟩
  have hjoins : equals.Joins .equality := ⟨.equalEqual, by decide, rfl⟩
  have hcanonical : tree.Canonical :=
    .unary (.inr rfl) (.group (.binary hjoins (.literal _) trivial (.literal _) trivial)) trivial
  have hwritten : tree.WrittenBy (untilMarker tokens) :=
    .unary (.group rfl (.binary (.literal (t := ⟨.keyword .nil_, "nil", 1⟩) rfl)
      (.literal (t := ⟨.keyword .true_, "true", 2⟩) rfl)) rfl)
  exact ⟨hterminated, ((Expr.ofTokens_exact tokens hterminated).1 tree).2
    ⟨hcanonical, by decide, hwritten⟩⟩

end Lox
