/-
The slices of a scan.

A scan takes its lexemes by bytes: from the offset where a piece begins to the offset where it ends,
and for a string once more without the first and the last byte. Neither count is checked against the
text. It does not have to be: every place a scan comes to is reached from the start of the source by
passing characters, so offsets only grow, they never leave the source, and they fall between two
characters, whatever the characters before them take in bytes.
-/
import Lox.Proofs.Lexing.Run

set_option autoImplicit false

namespace Lox

/-- The places that a scan of the source can come to: its start, and behind every piece. -/
inductive Cursor.ScannedTo (source : String) : Cursor → Prop
  | start : ScannedTo source (start source)
  | behind {place after : Cursor} {c : Char} : ScannedTo source place →
      place.next = (some c, after) → ScannedTo source (Piece.read c after).2

/-- The slices that are taken for a piece are in order: both places are in the source, the last one
is not in front of the first, there are whole characters between them, and those of a string have
a text between their quotation marks. -/
structure Piece.Sliceable (source : String) (piece : Piece) (first last : Cursor) : Prop where
  begins : first.source = source
  ends : last.source = source
  ordered : first.offset ≤ last.offset
  inside : last.offset ≤ Text.byteCount source.toList
  lexeme : ∃ lexeme : String, (first.slice last : Attempt Diagnostic String) = .ok lexeme ∧
    (piece = .string → ∃ text, (unquote lexeme : Attempt Diagnostic String) = .ok text)

/-- A place that a scan comes to is reached from the start by passing what is in front of it. -/
theorem Cursor.ScannedTo.passes {source : String} {place : Cursor}
    (hplace : place.ScannedTo source) : ∃ front, (Cursor.start source).Passes front place := by
  induction hplace with
  | start => exact ⟨[], Passes.refl _⟩
  | behind _ hnext ih =>
    obtain ⟨front, hfront⟩ := ih
    obtain ⟨more, htext, -⟩ := Piece.read_behind hnext
    exact ⟨front ++ _ :: more, hfront.trans htext⟩

/-- What a place has passed is what the source has in front of it. -/
theorem Cursor.Passes.offset_le {source : String} {place : Cursor} {front : List Char}
    (hpasses : (start source).Passes front place) :
    place.offset ≤ Text.byteCount source.toList := by
  have hsource : source.toList = front ++ place.rest := hpasses.rest
  have hoffset : place.offset = 0 + Text.byteCount front := hpasses.offset
  rw [hoffset, hsource, Text.byteCount_append]
  omega

/-- A string that is closed has a text between its quotation marks. -/
theorem Cut.unquote {ε : Type} {text rest : List Char} (hcut : Cut .string text rest) :
    ∃ body, (Piece.unquote (String.ofList text) : Attempt ε String) = .ok body := by
  cases hcut with
  | @string body _ _ => exact ⟨_, Piece.unquote_quoted body⟩

/-- Every slice of a scan is in order. -/
theorem Cursor.ScannedTo.sliceable {source : String} {place after : Cursor} {c : Char}
    (hplace : place.ScannedTo source) (hnext : place.next = (some c, after)) :
    (Piece.read c after).1.Sliceable source place (Piece.read c after).2 := by
  obtain ⟨front, hfront⟩ := hplace.passes
  obtain ⟨more, htext, hcut⟩ := Piece.read_behind hnext
  -- everything follows from what was passed up to the first place and between the two
  refine ⟨hfront.source, (hfront.trans htext).source, ?_, (hfront.trans htext).offset_le, ?_⟩
  · rw [htext.offset]
    omega
  · refine ⟨String.ofList (c :: more), htext.slice, fun hstring => ?_⟩
    rw [hstring] at hcut
    exact hcut.unquote

end Lox
