/-
What is read off a lexeme.

A scanned token means what the grammar says that its lexeme denotes (`Piece.Denotes`), so nothing in it
is free once lexeme and kind are known: symbols and keywords have one spelling each, a name and a string
are spelled out, and the digits of a number are read in one way (`Token.Scanned.meaning_eq`). The kind
has to be known only because the texts alone do not say whether a piece is a word or a number.
-/
import Lox.Proofs.Lexing.Spacing

set_option autoImplicit false

namespace Lox

/-- A scanned token means what its lexeme denotes, as a piece of some sort. -/
theorem Token.Scanned.denotes {t : Token} (h : t.Scanned) :
    ∃ piece : Piece, piece.Spelled t.lexeme.toList ∧ piece.Denotes t.lexeme.toList t.meaning := by
  obtain ⟨piece, rest, hcut, hmeaning⟩ := h.cut
  have hspelled := hcut.spelled (Piece.fault?_eq_none hmeaning 0 0)
  have hgap : piece ≠ .gap := by
    rintro rfl
    cases hmeaning
  obtain ⟨m, hm, hdenotes⟩ := hspelled.denotes hgap
  obtain rfl : m = t.meaning := Option.some.inj (hm.symm.trans hmeaning)
  exact ⟨piece, hspelled, hdenotes⟩

/-- A text denotes one thing of every kind at most. -/
theorem Piece.Denotes.meaning_eq {piece other : Piece} {text : List Char} {m m' : Meaning}
    (h : piece.Denotes text m) (h' : other.Denotes text m') (hkind : m.kind = m'.kind) : m = m' := by
  cases h with
  | symbol s =>
    cases m' with
    | symbol s' =>
      obtain rfl := Kind.symbol.inj hkind
      rfl
    | _ => cases hkind
  | keyword k =>
    cases m' with
    | keyword k' =>
      obtain rfl := Kind.keyword.inj hkind
      rfl
    | _ => cases hkind
  | string body =>
    generalize htext : '"' :: (body ++ ['"']) = text at h'
    cases h' with
    | string body' =>
      obtain rfl := List.append_cancel_right (List.cons.inj htext).2
      rfl
    | _ => cases hkind
  | number text =>
    cases h' with
    | number _ => rfl
    | _ => cases hkind
  | identifier _ =>
    cases h' with
    | identifier _ => rfl
    | _ => cases hkind

/-- Only its spelling denotes a symbol. -/
theorem Piece.Denotes.text_of_symbol {piece : Piece} {text : List Char} {m : Meaning} {s : Symbol}
    (h : piece.Denotes text m) (hm : m = .symbol s) : text = s.text.toList := by
  cases h with
  | symbol _ => rw [Meaning.symbol.inj hm]
  | _ => cases hm

/-- Only digits denote a number, the one that they are read as. -/
theorem Piece.Denotes.value_of_number {piece : Piece} {text : List Char} {m : Meaning} {x : Float}
    (h : piece.Denotes text m) (hm : m = .number x) : x = Number.ofDigits text := by
  cases h with
  | number _ => exact (Meaning.number.inj hm).symm
  | _ => cases hm

namespace Token.Scanned

variable {t u : Token}

/-- Kind and lexeme determine what a scanned token means. -/
theorem meaning_eq (ht : t.Scanned) (hu : u.Scanned) (hkind : t.kind = u.kind)
    (hlexeme : t.lexeme = u.lexeme) : t.meaning = u.meaning := by
  obtain ⟨piece, -, hdenotes⟩ := ht.denotes
  obtain ⟨other, -, hdenotes'⟩ := hu.denotes
  rw [hlexeme] at hdenotes
  exact hdenotes.meaning_eq hdenotes' hkind

/-- The lexeme of a symbol is its spelling. -/
theorem lexeme_eq_text (h : t.Scanned) {s : Symbol} (hs : t.meaning = .symbol s) :
    t.lexeme = s.text := by
  obtain ⟨piece, -, hdenotes⟩ := h.denotes
  exact String.toList_inj.1 (hdenotes.text_of_symbol hs)

/-- A number token means what its digits are read as. -/
theorem number_eq (h : t.Scanned) {x : Float} (hx : t.meaning = .number x) :
    x = Number.ofDigits t.lexeme.toList := by
  obtain ⟨piece, -, hdenotes⟩ := h.denotes
  exact hdenotes.value_of_number hx

end Token.Scanned

end Lox
