/-
The lines of tokens, and the one text that is no lexeme.

A run never goes back to an earlier line. A token carries the line on which its piece ends, and all
that comes behind it ends there or further down, so the lines of the tokens never decrease.

A diagnostic about the end shows a text in the place of a lexeme. A reader can tell the two apart:
the text has a blank behind a letter, and a piece that begins with a letter is a word, in which no
blank stands.
-/
import Lox.Proofs.Lexing.Spacing

set_option autoImplicit false

namespace Lox

/-! ## Lines -/

/-- The tokens of a run are on lines that never decrease, none of them above the line where the run
begins. -/
theorem Scans.lines {line : Nat} {source : List Char} {result : Except Diagnostic (List Token)}
    (hscans : Scans line source result) :
    ∀ {tokens : List Token}, result = .ok tokens →
      tokens.Pairwise (·.line ≤ ·.line) ∧ ∀ t ∈ tokens, line ≤ t.line := by
  induction hscans with
  | done line =>
    rintro _ ⟨⟩
    refine ⟨List.pairwise_singleton _ _, fun t ht => ?_⟩
    rw [List.mem_singleton.1 ht]
    exact Nat.le_refl line
  | fault _ _ =>
    intro tokens hresult
    cases hresult
  | @piece line piece text rest later _ _ _ ih =>
    intro tokens hresult
    cases later with
    | error d => cases hresult
    | ok found =>
      obtain ⟨hpairwise, hbelow⟩ := ih rfl
      obtain rfl : piece.tokens (line + text.count '\n') text ++ found = tokens :=
        Except.ok.inj hresult
      -- a token of the piece is on the line where the rest begins
      have hpiece : ∀ t ∈ piece.tokens (line + text.count '\n') text,
          t.line = line + text.count '\n' := by
        intro t ht
        rw [Piece.tokens, Option.mem_toList, Option.map_eq_some_iff] at ht
        obtain ⟨m, -, rfl⟩ := ht
        rfl
      refine ⟨List.pairwise_append.2 ⟨?_, hpairwise, fun t ht u hu => ?_⟩, fun t ht => ?_⟩
      · rw [Piece.tokens]
        cases piece.meaning? text with
        | none => exact .nil
        | some m => exact List.pairwise_singleton _ _
      · rw [hpiece t ht]
        exact hbelow u hu
      · rcases List.mem_append.1 ht with ht | ht
        · rw [hpiece t ht]
          exact Nat.le_add_right _ _
        · exact Nat.le_trans (Nat.le_add_right _ _) (hbelow t ht)

theorem Token.scan_lines {source : String} {tokens : List Token}
    (hscan : Token.scan source = .ok tokens) : tokens.Pairwise (·.line ≤ ·.line) :=
  ((Token.scans_of_ok hscan).lines rfl).1

/-! ## No lexeme reads `at end` -/

theorem Piece.Spelled.ne_atEnd {piece : Piece} {text : List Char} (h : piece.Spelled text) :
    text ≠ "at end".toList := by
  rintro rfl
  have hspelled : piece.Spelled ('a' :: "t end".toList) := h
  have hadmits := hspelled.admitted
  rw [Opening.of_letter rfl] at hadmits
  have hword : isWordChar ' ' = true := hadmits.2 ' ' (by decide)
  exact absurd hword (by decide)

/-- What stands in a diagnostic about the end is no lexeme of a source. -/
theorem Token.scan_lexeme_ne_atEnd {source : String} {tokens : List Token}
    (hscan : Token.scan source = .ok tokens) : ∀ t ∈ tokens, t.lexeme ≠ "at end" := by
  intro t ht hlexeme
  by_cases hending : t.isEnding = true
  · obtain ⟨body, rfl, hopen⟩ := Token.scan_body hscan
    rcases List.mem_append.1 ht with ht | ht
    · rw [hopen t ht] at hending
      cases hending
    · rw [List.mem_singleton.1 ht] at hlexeme
      have hempty : "" = "at end" := hlexeme
      exact absurd hempty (by decide)
  · have hscanned : t.Scanned := ⟨source, tokens, hscan, ht, Bool.eq_false_iff.2 hending⟩
    obtain ⟨piece, rest, hcut, hmeaning⟩ := hscanned.cut
    have hspelled := hcut.spelled (Piece.fault?_eq_none hmeaning 0 0)
    exact hspelled.ne_atEnd (congrArg String.toList hlexeme)

end Lox
