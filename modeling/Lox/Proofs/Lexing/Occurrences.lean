/-
Where the tokens of a source stand.

The pieces of a source lie side by side, and those that are no gaps are its tokens in order. So every
token has a place of its own: what is in front of it is the text of the pieces before its own
(`OccursAt`). Its line is found there by counting line feeds, from the front up to the end of its
lexeme; and as a line feed is part of strings and gaps only, any other token is on the line on which it
begins.

Both are carried along the pieces. A scan behind a piece is a scan of the rest from the line on which
the piece ends, so the induction is on the pieces in front of the token, for any line to begin with.
-/
import Lox.Proofs.Lexing.Lines

set_option autoImplicit false

namespace Lox

/-! ## Places -/

/-- The text is the piece of the token with this index, and the source is that text with `front` before
it and `rest` behind it. -/
inductive OccursAt (source : List Char) : Nat → List Char → List Char → List Char → Prop
  | piece {before after : List (Piece × List Char)} {piece : Piece} {text : List Char} :
      Munches source (before ++ (piece, text) :: after) → piece ≠ .gap →
      OccursAt source (before.filter (·.1 ≠ .gap)).length (before.map Prod.snd).flatten text
        (after.map Prod.snd).flatten

theorem OccursAt.source_eq {source front text rest : List Char} {index : Nat}
    (h : OccursAt source index front text rest) : source = front ++ text ++ rest := by
  cases h with
  | piece hmunches _ =>
    have hflatten := hmunches.flatten
    rw [List.map_append, List.flatten_append, List.map_cons, List.flatten_cons] at hflatten
    rw [← hflatten, List.append_assoc]

/-- The element of a filtered list at an index, found in the list itself. -/
theorem exists_split_of_lt_filter {α : Type} {p : α → Bool} {list : List α} {index : Nat}
    (h : index < (list.filter p).length) :
    ∃ before x after, list = before ++ x :: after ∧ p x = true ∧
      (before.filter p).length = index := by
  induction list generalizing index with
  | nil => cases h
  | cons x list ih =>
    by_cases hx : p x = true
    · rw [List.filter_cons_of_pos hx, List.length_cons] at h
      cases index with
      | zero => exact ⟨[], x, list, rfl, hx, rfl⟩
      | succ index =>
        obtain ⟨before, y, after, rfl, hy, rfl⟩ := ih (Nat.lt_of_succ_lt_succ h)
        refine ⟨x :: before, y, after, rfl, hy, ?_⟩
        rw [List.filter_cons_of_pos hx, List.length_cons]
    · rw [List.filter_cons_of_neg hx] at h
      obtain ⟨before, y, after, rfl, hy, rfl⟩ := ih h
      refine ⟨x :: before, y, after, rfl, hy, ?_⟩
      rw [List.filter_cons_of_neg hx]

/-! ## Tokens at their places -/

/-- A piece leaves one token, unless it is a gap, which leaves none. -/
theorem Piece.Spelled.tokens_eq {piece : Piece} {text : List Char} (h : piece.Spelled text)
    (last : Nat) :
    if piece = .gap then piece.tokens last text = []
    else ∃ m, piece.meaning? text = some m ∧
      piece.tokens last text = [⟨m, String.ofList text, last⟩] := by
  by_cases hgap : piece = .gap
  · rw [if_pos hgap, hgap]
    rfl
  · rw [if_neg hgap]
    obtain ⟨m, hm, -⟩ := h.denotes hgap
    refine ⟨m, hm, ?_⟩
    rw [tokens, hm]
    rfl

/-- A run with tokens over a source with a longest piece: the token of the piece, if it has one, and
the tokens of a run behind it. -/
theorem Scans.ok_behind_longest {line : Nat} {piece : Piece} {text rest : List Char}
    {tokens : List Token} (hscans : Scans line (text ++ rest) (.ok tokens))
    (hlongest : piece.Longest text rest) :
    ∃ found, Scans (line + text.count '\n') rest (.ok found) ∧
      tokens = piece.tokens (line + text.count '\n') text ++ found := by
  obtain ⟨later, hlater, hresult⟩ := hscans.behind_longest hlongest rfl
  cases later with
  | error d => cases hresult
  | ok found => exact ⟨found, hlater, Except.ok.inj hresult⟩

/-- The token of a piece is on the line that is reached at the end of the piece. The induction is on
the pieces in front of it. -/
theorem Scans.token_of_munches {piece : Piece} {text : List Char}
    {before after : List (Piece × List Char)} (hgap : piece ≠ .gap) :
    ∀ {line : Nat} {source : List Char} {tokens : List Token},
      Munches source (before ++ (piece, text) :: after) → Scans line source (.ok tokens) →
      piece.Spelled text ∧ ∃ m, piece.meaning? text = some m ∧
        tokens[(before.filter (·.1 ≠ .gap)).length]? = some ⟨m, String.ofList text,
          line + ((before.map Prod.snd).flatten ++ text).count '\n'⟩ := by
  induction before with
  | nil =>
    intro line source tokens hmunches hscans
    cases hmunches with
    | piece hlongest _ =>
      obtain ⟨found, -, rfl⟩ := hscans.ok_behind_longest hlongest
      have htoken := hlongest.spelled.tokens_eq (line + text.count '\n')
      rw [if_neg hgap] at htoken
      obtain ⟨m, hm, htoken⟩ := htoken
      refine ⟨hlongest.spelled, m, hm, ?_⟩
      rw [htoken]
      rfl
  | cons first before ih =>
    intro line source tokens hmunches hscans
    cases hmunches with
    | @piece sort text' rest _ hlongest hmore =>
      obtain ⟨found, hlater, rfl⟩ := hscans.ok_behind_longest hlongest
      obtain ⟨hspelled, m, hm, hget⟩ := ih hmore hlater
      refine ⟨hspelled, m, hm, ?_⟩
      have htoken := hlongest.spelled.tokens_eq (line + text'.count '\n')
      rw [List.map_cons, List.flatten_cons, List.append_assoc, List.count_append, ← Nat.add_assoc]
      by_cases hsort : sort = .gap
      · rw [if_pos hsort] at htoken
        rw [htoken, List.filter_cons_of_neg (by simp [hsort])]
        exact hget
      · rw [if_neg hsort] at htoken
        obtain ⟨m', -, htoken⟩ := htoken
        rw [htoken, List.filter_cons_of_pos (by simp [hsort])]
        exact hget

/-! ## Line feeds in lexemes -/

/-- Only strings and gaps have line feeds in them. -/
theorem Piece.Spelled.not_mem_lineFeed {piece : Piece} {text : List Char} (h : piece.Spelled text)
    (hgap : piece ≠ .gap) (hstring : piece ≠ .string) : '\n' ∉ text := by
  have hdigit : ∀ digits : List Char, (∀ x ∈ digits, x.isDigit = true) → '\n' ∉ digits :=
    fun digits hall hmem => absurd (hall _ hmem) (by decide)
  cases h with
  | symbol s => cases s <;> decide
  | blank _ => exact absurd rfl hgap
  | comment _ => exact absurd rfl hgap
  | string _ => exact absurd rfl hstring
  | whole _ hall => exact hdigit _ hall
  | decimal _ hall _ hplaces =>
    intro hmem
    rcases List.mem_append.1 hmem with hmem | hmem
    · exact hdigit _ hall hmem
    · rcases List.mem_cons.1 hmem with hpoint | hmem
      · cases hpoint
      · exact hdigit _ hplaces hmem
  | word hfirst hbody =>
    intro hmem
    rcases List.mem_cons.1 hmem with rfl | hmem
    · exact absurd hfirst (by decide)
    · exact absurd (hbody _ hmem) (by decide)

/-- A token that is no string does not come from a string piece. -/
theorem Piece.ne_string_of_kind {piece : Piece} {text : List Char} {m : Meaning}
    (hm : piece.meaning? text = some m) (hkind : m.kind ≠ .string) : piece ≠ .string := by
  rintro rfl
  apply hkind
  rw [← Option.some.inj hm]
  rfl

/-! ## Lines of scanned tokens -/

/-- What is found in front of an end marker, and is none itself, is found without it. -/
theorem getElem?_body {body : List Token} {marker t : Token} {index : Nat}
    (hmarker : marker.isEnding = true) (hget : (body ++ [marker])[index]? = some t)
    (hopen : t.isEnding = false) : body[index]? = some t := by
  by_cases hindex : index < body.length
  · rw [List.getElem?_append_left hindex] at hget
    exact hget
  · rw [List.getElem?_append_right (Nat.le_of_not_lt hindex)] at hget
    obtain rfl := List.mem_singleton.1 (List.mem_of_getElem? hget)
    rw [hmarker] at hopen
    cases hopen

namespace OccursAt

variable {source : String} {body : List Token} {marker : Token} {index : Nat}
  {front text rest : List Char}

/-- What stands at a place of the source is the token with its index, never the end marker. -/
theorem token (h : OccursAt source.toList index front text rest)
    (hscan : Token.scan source = .ok (body ++ [marker])) (hmarker : marker.isEnding = true) :
    ∃ t, body[index]? = some t ∧ t.lexeme = String.ofList text ∧
      t.line = 1 + (front ++ text).count '\n' ∧
      (t.kind ≠ .string → '\n' ∉ text ∧ t.line = 1 + front.count '\n') := by
  cases h with
  | piece hmunches hgap =>
    obtain ⟨hspelled, m, hm, hget⟩ :=
      Scans.token_of_munches hgap hmunches (Token.scans_of_ok hscan)
    refine ⟨_, getElem?_body hmarker hget ?_, rfl, rfl, fun hkind => ?_⟩
    · rw [Token.isEnding, decide_eq_false_iff_not]
      exact Piece.kind_ne_ending hm
    · have hnone := hspelled.not_mem_lineFeed hgap (Piece.ne_string_of_kind hm hkind)
      refine ⟨hnone, ?_⟩
      simp only [List.count_append, List.count_eq_zero.2 hnone, Nat.add_zero]

/-- Every token but the end marker stands somewhere. -/
theorem exists_of_lt (hscan : Token.scan source = .ok (body ++ [marker])) (hindex : index < body.length) :
    ∃ front text rest, OccursAt source.toList index front text rest := by
  have hscans := Token.scans_of_ok hscan
  obtain ⟨pieces, hmunches⟩ := hscans.munches rfl
  obtain ⟨others, stop, hothers, hstand⟩ := hmunches.scans_ok hscans
  obtain rfl : body = others := List.append_inj_left' (Except.ok.inj hothers) rfl
  -- the piece of the token has as many pieces before it that are no gaps as its index says
  have hlength : index < (pieces.filter (·.1 ≠ .gap)).length := by
    rw [hstand.length_eq]
    exact hindex
  obtain ⟨before, ⟨piece, text⟩, after, rfl, hgap, rfl⟩ := exists_split_of_lt_filter hlength
  exact ⟨_, text, _, .piece hmunches (by simpa using hgap)⟩

end OccursAt

end Lox
