/-
The cuts of a source.

`Piece.read` moves a cursor; `Cut piece text rest` says what that comes to for the characters:
where `text ++ rest` is left to read, `text` is cut off as this piece. There is one constructor for
each way in which a piece can end, with just what was looked at to end it there: the rest's first
character for a run or a pair, the first two for the point of a number. Everything that is said
about the scanner's pieces is derived from this relation, and `Piece.read` is opened here only.

The other half of a step makes the token. A slice between the places gives the text back, so the
token, or the fault, is a function of the piece, its text and the lines at its two ends.
-/
import Lox.Proofs.Lexing.Motion
import Lox.Token.Scan

set_option autoImplicit false

namespace Lox

/-! ## Cuts -/

/-- In front of `rest`, `text` is cut off as this piece. -/
inductive Cut : Piece → List Char → List Char → Prop
  | lone {c : Char} {s : Symbol} {rest : List Char} : Symbol.ofChar? c = some s →
      Cut (.symbol s) [c] rest
  | short {c : Char} {short long : Symbol} {rest : List Char} :
      Symbol.pairOfChar? c = some (short, long) → rest.head? ≠ some '=' →
      Cut (.symbol short) [c] rest
  | long {c : Char} {short long : Symbol} {rest : List Char} :
      Symbol.pairOfChar? c = some (short, long) → Cut (.symbol long) [c, '='] rest
  | slash {rest : List Char} : rest.head? ≠ some '/' → Cut (.symbol .slash) ['/'] rest
  | comment {body rest : List Char} : (∀ x ∈ body, x ≠ '\n') → (∀ x ∈ rest.head?, x = '\n') →
      Cut .gap ('/' :: '/' :: body) rest
  | blank {c : Char} {rest : List Char} : isBlank c = true → Cut .gap [c] rest
  | string {body rest : List Char} : (∀ x ∈ body, x ≠ '"') →
      Cut .string ('"' :: (body ++ ['"'])) rest
  | openString {body : List Char} : (∀ x ∈ body, x ≠ '"') → Cut .openString ('"' :: body) []
  | whole {c : Char} {digits rest : List Char} : c.isDigit = true →
      (∀ x ∈ digits, x.isDigit = true) → (∀ x ∈ rest.head?, x.isDigit = false) →
      (∀ x more, rest = '.' :: x :: more → x.isDigit = false) → Cut .number (c :: digits) rest
  | decimal {c x : Char} {digits places rest : List Char} : c.isDigit = true →
      (∀ y ∈ digits, y.isDigit = true) → x.isDigit = true → (∀ y ∈ places, y.isDigit = true) →
      (∀ y ∈ rest.head?, y.isDigit = false) →
      Cut .number (c :: (digits ++ '.' :: x :: places)) rest
  | word {c : Char} {body rest : List Char} : isLetter c = true →
      (∀ x ∈ body, isWordChar x = true) → (∀ x ∈ rest.head?, isWordChar x = false) →
      Cut .word (c :: body) rest
  | stray {c : Char} {rest : List Char} : Symbol.ofChar? c = none →
      Symbol.pairOfChar? c = none → c ≠ '/' → isBlank c = false → c ≠ '"' →
      c.isDigit = false → isLetter c = false → Cut (.stray c) [c] rest

/-! ## Every step is a cut -/

/-- The end of a number, behind its first digit. -/
theorem Piece.numberEnd_cut {c : Char} (hc : c.isDigit = true) (after : Cursor) :
    ∃ more, after.Passes more (numberEnd after) ∧
      Cut .number (c :: more) (numberEnd after).rest := by
  obtain ⟨digits, hdigits, hall, hstop⟩ := after.eatWhile_passes Char.isDigit
  rw [numberEnd]
  split
  · rename_i hpoint
    obtain ⟨x, more, hrest, hx⟩ := Cursor.point_ahead hpoint.1 hpoint.2
    have hpass : (after.eatWhile Char.isDigit).Passes ['.']
        (after.eatWhile Char.isDigit).next.2 := by
      rw [Cursor.next, hrest]
      exact Cursor.pass_passes hrest
    have hbehind : (after.eatWhile Char.isDigit).next.2.rest = x :: more := by
      rw [Cursor.next, hrest]
      rfl
    obtain ⟨places, hrun, hplaces, hend⟩ := Cursor.eatWhile_passes_cons hbehind hx
    refine ⟨digits ++ '.' :: x :: places, ?_, .decimal hc hall hx hplaces hend⟩
    simpa using hdigits.trans (hpass.trans hrun)
  · rename_i hpoint
    refine ⟨digits, hdigits, .whole hc hall hstop ?_⟩
    -- a point may follow, but then no digit stands behind it
    intro x more hrest
    rw [Cursor.peek, Cursor.peekNext, hrest] at hpoint
    simpa using hpoint

/-- The piece that begins with a character is cut off at the place where it ends. -/
theorem Piece.read_cut (c : Char) (after : Cursor) :
    ∃ more, after.Passes more (read c after).2 ∧
      Cut (read c after).1 (c :: more) (read c after).2.rest := by
  have hhere := Cursor.Passes.refl after
  rw [read]
  split
  · rename_i s hlone
    exact ⟨[], hhere, .lone hlone⟩
  · rename_i short long _ hpair
    -- one character of lookahead: the equals sign
    split
    · rename_i stop hadvance
      exact ⟨['='], Cursor.advanceIf_true hadvance, .long hpair⟩
    · rename_i stop hadvance
      obtain ⟨rfl, hhead⟩ := Cursor.advanceIf_false hadvance
      exact ⟨[], hhere, .short hpair hhead⟩
  · rename_i hlone hpair
    split
    · rename_i hslash
      subst hslash
      -- a second slash makes a comment, which runs to the line feed and leaves it there
      split
      · rename_i comment hadvance
        obtain ⟨body, hbody, hall, hstop⟩ := comment.eatWhile_passes (· != '\n')
        exact ⟨'/' :: body, (Cursor.advanceIf_true hadvance).trans hbody,
          .comment (by simpa using hall) (by simpa using hstop)⟩
      · rename_i stop hadvance
        obtain ⟨rfl, hhead⟩ := Cursor.advanceIf_false hadvance
        exact ⟨[], hhere, .slash hhead⟩
    split
    · rename_i hblank
      exact ⟨[], hhere, .blank hblank⟩
    split
    · rename_i hquote
      subst hquote
      obtain ⟨body, hbody, hall, hstop⟩ := after.eatWhile_passes (· != '"')
      split
      · rename_i stop hadvance
        exact ⟨body ++ ['"'], hbody.trans (Cursor.advanceIf_true hadvance),
          .string (by simpa using hall)⟩
      · rename_i stop hadvance
        obtain ⟨rfl, hhead⟩ := Cursor.advanceIf_false hadvance
        -- the run stopped, but not at a quotation mark: nothing is left
        have hnil : (after.eatWhile (· != '"')).rest = [] := by
          cases hrest : (after.eatWhile (· != '"')).rest with
          | nil => rfl
          | cons x more =>
            have hx : x = '"' := by simpa [hrest] using hstop
            simp [hrest, hx] at hhead
        refine ⟨body, hbody, ?_⟩
        rw [hnil]
        exact .openString (by simpa using hall)
    split
    · rename_i hdigit
      exact numberEnd_cut hdigit after
    split
    · rename_i hletter
      obtain ⟨body, hbody, hall, hstop⟩ := after.eatWhile_passes isWordChar
      exact ⟨body, hbody, .word hletter hall hstop⟩
    · rename_i hslash hblank hquote hdigit hletter
      exact ⟨[], hhere, .stray hlone hpair hslash (by simpa using hblank) hquote
        (by simpa using hdigit) (by simpa using hletter)⟩

/-- From a place with something to read, the piece there is passed and cut off. -/
theorem Piece.read_behind {place after : Cursor} {c : Char} (hnext : place.next = (some c, after)) :
    ∃ more, place.Passes (c :: more) (read c after).2 ∧
      Cut (read c after).1 (c :: more) (read c after).2.rest := by
  obtain ⟨more, hmore, hcut⟩ := read_cut c after
  exact ⟨more, (Cursor.next_passes hnext).trans hmore, hcut⟩

end Lox
