/-
Maximal munch.

The scanner decides where a piece ends by looking one or two characters ahead. This file says that
those looks are always enough: every cut that is no fault is the longest prefix of the remaining
text that the grammar knows as a piece, under the only sort that the grammar has for it, and where
the scanner reports a fault the grammar has no prefix at all.

The grammar and the cuts meet in `Cut.maximal`. A piece of the grammar that competes with a cut
begins with the same character, so by `Piece.Spelled.admitted` it is of the sort the scanner chose,
or the scanner had to look further. Against a competitor of the same sort there are two arguments
only, about runs of one class of characters: a run that stops at a character outside the class is
as long as any (`run_maximal`), and what comes behind a shorter run is in the class
(`run_unique`).
-/
import Mathlib.Data.List.Forall2
import Lox.Proofs.Lexing.Run
import Lox.Proofs.Lexing.Spelling

set_option autoImplicit false

namespace Lox

/-! ## Runs of one class -/

section Runs

variable {α : Type} {p : α → Prop} {run other rest : List α}

/-- A run that stops outside the class is the longest one. -/
theorem run_maximal (hother : ∀ x ∈ other, p x) (hstop : ∀ x ∈ rest.head?, ¬ p x)
    (hbegins : other <+: run ++ rest) : other.length < run.length ∨ other = run := by
  -- two prefixes of one text are comparable, and the other one cannot go on behind the run
  have hshort : other <+: run := by
    rcases List.prefix_or_prefix_of_prefix hbegins (List.prefix_append run rest) with h | h
    · exact h
    · obtain ⟨more, rfl⟩ := h
      rw [List.prefix_append_right_inj] at hbegins
      cases more with
      | nil => simp
      | cons x more =>
        obtain ⟨back, hback⟩ := hbegins
        have hx : x ∈ rest.head? := by simp [← hback]
        exact absurd (hother x (by simp)) (hstop x hx)
  by_cases hlength : run.length ≤ other.length
  · exact .inr (hshort.eq_of_length_le hlength)
  · exact .inl (Nat.lt_of_not_le hlength)

/-- Two runs in front of one text are equal where each stops outside the class. -/
theorem run_unique {x : α} {behind : List α} (hrun : ∀ y ∈ run, p y) (hother : ∀ y ∈ other, p y)
    (hstop : ∀ y ∈ rest.head?, ¬ p y) (hx : ¬ p x)
    (hbegins : other ++ x :: behind <+: run ++ rest) : other = run ∧ x :: behind <+: rest := by
  have hfront : other <+: run ++ rest := (List.prefix_append _ _).trans hbegins
  rcases run_maximal hother hstop hfront with hlt | heq
  · -- the shorter run would be followed by a character of the longer one
    have hlength : other.length < (other ++ x :: behind).length := by simp
    have hget := hbegins.getElem hlength
    rw [List.getElem_append_right (Nat.le_refl _), List.getElem_append_left hlt] at hget
    simp only [Nat.sub_self, List.getElem_cons_zero] at hget
    rw [hget] at hx
    exact absurd (hrun _ (List.getElem_mem hlt)) hx
  · rw [heq, List.prefix_append_right_inj] at hbegins
    exact ⟨heq, hbegins⟩

/-- Two runs that both stop outside the class are equal if they begin one text. -/
theorem run_eq {rest' : List α} (hrun : ∀ x ∈ run, p x) (hother : ∀ x ∈ other, p x)
    (hstop : ∀ x ∈ rest.head?, ¬ p x) (hstop' : ∀ x ∈ rest'.head?, ¬ p x)
    (h : run ++ rest = other ++ rest') : run = other ∧ rest = rest' := by
  have heq : run = other := by
    rcases run_maximal hother hstop (h ▸ List.prefix_append other rest') with hlt | heq
    · rcases run_maximal hrun hstop' (h ▸ List.prefix_append run rest) with hlt' | heq
      · exact absurd hlt (Nat.lt_asymm hlt')
      · exact heq
    · exact heq.symm
  subst heq
  exact ⟨rfl, List.append_cancel_left h⟩

end Runs

/-! ## Cuts and the grammar -/

namespace Cut

variable {piece : Piece} {text rest : List Char}

theorem ne_nil (hcut : Cut piece text rest) : text ≠ [] := by
  cases hcut <;> simp

/-- A cut that is no fault is a piece of the grammar. -/
theorem spelled {first last : Nat} (hcut : Cut piece text rest)
    (hfault : piece.fault? first last text = none) : piece.Spelled text := by
  cases hcut with
  | lone hlone => exact (Symbol.text_of_ofChar? hlone) ▸ .symbol _
  | short hpair _ => exact (Symbol.text_of_pairOfChar? hpair).1 ▸ .symbol _
  | long hpair => exact (Symbol.text_of_pairOfChar? hpair).2 ▸ .symbol _
  | slash _ => exact .symbol .slash
  | comment hbody _ => exact .comment hbody
  | blank hblank => exact .blank (by simpa [isBlank, or_assoc] using hblank)
  | string hbody => exact .string hbody
  | openString _ => cases hfault
  | whole hc hdigits _ _ =>
    exact .whole (List.cons_ne_nil _ _) (List.forall_mem_cons.2 ⟨hc, hdigits⟩)
  | decimal hc hdigits hx hplaces _ =>
    rw [← List.cons_append]
    exact .decimal (List.cons_ne_nil _ _) (List.forall_mem_cons.2 ⟨hc, hdigits⟩)
      (List.cons_ne_nil _ _) (List.forall_mem_cons.2 ⟨hx, hplaces⟩)
  | word hletter hbody _ =>
    exact .word (isLetter_iff.1 hletter) fun x hx => isWordChar_iff.1 (hbody x hx)
  | stray => cases hfault

/-- **No piece is longer than a cut.** What else the grammar has at the front of a text is shorter
than the scanner's cut, or is that cut; where the cut is a fault, there is nothing. -/
theorem maximal {other : Piece} {front : List Char} (hcut : Cut piece text rest)
    (hspelled : other.Spelled front) (hbegins : front <+: text ++ rest) :
    (∀ first last, piece.fault? first last text = none) ∧
      (front.length < text.length ∨ (other = piece ∧ front = text)) := by
  rcases front with _ | ⟨c, more⟩
  · exact absurd rfl hspelled.ne_nil
  rcases text with _ | ⟨d, text⟩
  · exact absurd rfl hcut.ne_nil
  rw [List.cons_append, List.cons_prefix_cons] at hbegins
  obtain ⟨rfl, hmore⟩ := hbegins
  -- the competitor begins with the same character, so it is of a sort that this one admits
  have hadmits := hspelled.admitted
  cases hcut with
  | lone hlone =>
    rw [Opening.of_lone hlone] at hadmits
    obtain ⟨rfl, rfl⟩ := hadmits
    exact ⟨fun _ _ => rfl, .inr ⟨rfl, rfl⟩⟩
  | short hpair hhead =>
    rw [Opening.of_pair hpair] at hadmits
    rcases hadmits with ⟨rfl, rfl⟩ | ⟨rfl, rfl⟩
    · exact ⟨fun _ _ => rfl, .inr ⟨rfl, rfl⟩⟩
    · -- an equals sign would be next
      obtain ⟨back, rfl⟩ := hmore
      exact absurd rfl hhead
  | long hpair =>
    rw [Opening.of_pair hpair] at hadmits
    rcases hadmits with ⟨rfl, rfl⟩ | ⟨rfl, rfl⟩
    · exact ⟨fun _ _ => rfl, .inl (by simp)⟩
    · exact ⟨fun _ _ => rfl, .inr ⟨rfl, rfl⟩⟩
  | slash hhead =>
    rcases hadmits with ⟨rfl, rfl⟩ | ⟨rfl, body, rfl, -⟩
    · exact ⟨fun _ _ => rfl, .inr ⟨rfl, rfl⟩⟩
    · -- a second slash would be next
      obtain ⟨back, rfl⟩ := hmore
      exact absurd rfl hhead
  | comment hbody hstop =>
    refine ⟨fun _ _ => rfl, ?_⟩
    rcases hadmits with ⟨rfl, rfl⟩ | ⟨rfl, body, rfl, hall⟩
    · exact .inl (by simp)
    · rw [List.cons_append, List.cons_prefix_cons] at hmore
      rcases run_maximal hall (by simpa using hstop) hmore.2 with hlt | rfl
      · exact .inl (by simpa using hlt)
      · exact .inr ⟨rfl, rfl⟩
  | blank hblank =>
    rw [Opening.of_blank hblank] at hadmits
    obtain ⟨rfl, rfl⟩ := hadmits
    exact ⟨fun _ _ => rfl, .inr ⟨rfl, rfl⟩⟩
  | string hbody =>
    obtain ⟨rfl, body, rfl, hall⟩ := hadmits
    rw [List.append_assoc] at hmore
    obtain ⟨rfl, -⟩ := run_unique hbody hall (by simp) (by simp) hmore
    exact ⟨fun _ _ => rfl, .inr ⟨rfl, rfl⟩⟩
  | openString hbody =>
    -- a string would need a closing quotation mark, and there is none up to the end
    obtain ⟨rfl, body, rfl, -⟩ := hadmits
    have hquote : '"' ∈ text ++ [] := hmore.subset (by simp)
    rw [List.append_nil] at hquote
    exact absurd rfl (hbody _ hquote)
  | whole hc hdigits hstop hpoint =>
    rw [Opening.of_digit hc] at hadmits
    obtain ⟨rfl, hall | ⟨ds, places, rfl, hall, hne, hplaces⟩⟩ := hadmits
    · refine ⟨fun _ _ => rfl, ?_⟩
      rcases run_maximal hall (by simpa using hstop) hmore with hlt | rfl
      · exact .inl (by simpa using hlt)
      · exact .inr ⟨rfl, rfl⟩
    · -- a longer number would need the point and the digit that the scanner looked for
      obtain ⟨-, back, rfl⟩ := run_unique hdigits hall (by simpa using hstop) (by decide) hmore
      cases places with
      | nil => exact absurd rfl hne
      | cons x places =>
        have hx := hpoint x (places ++ back) rfl
        rw [hplaces x (List.mem_cons_self ..)] at hx
        cases hx
  | @decimal _ x digits places _ hc hdigits hx hplaces hstop =>
    rw [Opening.of_digit hc] at hadmits
    refine ⟨fun _ _ => rfl, ?_⟩
    rw [List.append_assoc] at hmore
    -- the digits in front of the point stop at it, whatever the competitor does behind it
    have hpoint : ∀ y ∈ ('.' :: x :: places ++ rest).head?, ¬ y.isDigit = true := by
      intro y hy
      obtain rfl : '.' = y := by simpa using hy
      decide
    obtain ⟨rfl, hall | ⟨ds, others, rfl, hall, -, hothers⟩⟩ := hadmits
    · have hlength : more.length ≤ digits.length := by
        rcases run_maximal hall hpoint hmore with hlt | rfl
        · exact Nat.le_of_lt hlt
        · exact Nat.le_refl _
      exact .inl (by simp; omega)
    · obtain ⟨rfl, hbehind⟩ := run_unique hdigits hall hpoint (by decide) hmore
      rw [List.cons_append, List.cons_prefix_cons] at hbehind
      rcases run_maximal hothers (by simpa using hstop) hbehind.2 with hlt | rfl
      · exact .inl (by simpa using hlt)
      · exact .inr ⟨rfl, rfl⟩
  | word hletter hbody hstop =>
    rw [Opening.of_letter hletter] at hadmits
    obtain ⟨rfl, hall⟩ := hadmits
    refine ⟨fun _ _ => rfl, ?_⟩
    rcases run_maximal hall (by simpa using hstop) hmore with hlt | rfl
    · exact .inl (by simpa using hlt)
    · exact .inr ⟨rfl, rfl⟩
  | stray hlone hpair hslash hblank hquote hdigit hletter =>
    rw [Opening.of, hlone, hpair] at hadmits
    simp only at hadmits
    rw [if_neg hslash, if_neg (by simp [hblank]), if_neg hquote, if_neg (by simp [hdigit]),
      if_neg (by simp [hletter])] at hadmits
    exact hadmits.elim

/-- A cut that is no fault is the longest piece. -/
theorem longest {first last : Nat} (hcut : Cut piece text rest)
    (hfault : piece.fault? first last text = none) : piece.Longest text rest := by
  refine ⟨hcut.spelled hfault, fun other front hspelled hbegins => ?_⟩
  rcases (hcut.maximal hspelled hbegins).2 with hlt | ⟨-, rfl⟩
  · exact Nat.le_of_lt hlt
  · exact Nat.le_refl _

/-- The longest piece at the front of a text is the scanner's cut, which is no fault then. -/
theorem eq_of_longest {other : Piece} {front back : List Char} (hcut : Cut piece text rest)
    (hlongest : other.Longest front back) (hsource : text ++ rest = front ++ back) :
    (∀ first last, piece.fault? first last text = none) ∧
      piece = other ∧ text = front ∧ rest = back := by
  have hbegins : front <+: text ++ rest := by
    rw [hsource]
    exact List.prefix_append front back
  obtain ⟨hclean, hlt | ⟨rfl, rfl⟩⟩ := hcut.maximal hlongest.spelled hbegins
  · -- the cut is a piece too, and it would be longer
    have hle := hlongest.longest piece text (hcut.spelled (hclean 0 0))
      (by rw [← hsource]; exact List.prefix_append text rest)
    exact absurd hlt (Nat.not_lt.2 hle)
  · exact ⟨hclean, rfl, rfl, List.append_cancel_left hsource⟩

end Cut

/-! ## What the tokens are -/

/-- A text of the grammar that is no gap has the meaning that its token is given. -/
theorem Piece.Spelled.denotes {piece : Piece} {text : List Char} (h : piece.Spelled text)
    (hgap : piece ≠ .gap) : ∃ m, piece.meaning? text = some m ∧ piece.Denotes text m := by
  cases h with
  | symbol s => exact ⟨_, rfl, .symbol s⟩
  | blank _ => exact absurd rfl hgap
  | comment _ => exact absurd rfl hgap
  | @string body _ =>
    refine ⟨.string (String.ofList body), ?_, .string body⟩
    rw [meaning?, List.tail_cons, List.dropLast_concat]
  | whole _ _ => exact ⟨_, rfl, .number _⟩
  | decimal _ _ _ _ => exact ⟨_, rfl, .number _⟩
  | @word c body _ _ =>
    refine ⟨_, rfl, ?_⟩
    rw [wordMeaning]
    cases hword : Keyword.ofText? (String.ofList (c :: body)) with
    | some k =>
      have htext : c :: body = k.text.toList := by
        rw [Keyword.text_of_ofText? hword, String.toList_ofList]
      rw [htext]
      exact .keyword k
    | none => exact .identifier fun k hk => Keyword.ofText?_eq_none hword k (by rw [← hk]; simp)

/-! ## Munches and runs -/

namespace Scans

variable {line : Nat} {source : List Char} {result : Except Diagnostic (List Token)}

/-- At the end of a source there is only the end marker. -/
theorem at_end (hscans : Scans line source result) (hsource : source = []) :
    result = .ok [.endMarker line] := by
  cases hscans with
  | done => rfl
  | fault hcut _ => exact absurd (List.append_eq_nil_iff.1 hsource).1 hcut.ne_nil
  | piece hcut _ _ => exact absurd (List.append_eq_nil_iff.1 hsource).1 hcut.ne_nil

/-- A run over a source with a longest piece takes that piece and goes on behind it. -/
theorem behind_longest {piece : Piece} {text rest : List Char} (hscans : Scans line source result)
    (hlongest : piece.Longest text rest) (hsource : source = text ++ rest) :
    ∃ later, Scans (line + text.count '\n') rest later ∧
      result = later.map (piece.tokens (line + text.count '\n') text ++ ·) := by
  cases hscans with
  | done => exact absurd (List.append_eq_nil_iff.1 hsource.symm).1 hlongest.spelled.ne_nil
  | fault hcut hfault =>
    rw [(hcut.eq_of_longest hlongest hsource).1] at hfault
    cases hfault
  | piece hcut _ hlater =>
    obtain ⟨-, rfl, rfl, rfl⟩ := hcut.eq_of_longest hlongest hsource
    exact ⟨_, hlater, rfl⟩

/-- A run without a fault is a munch: the induction is on the run, whose every cut is longest. -/
theorem munches (hscans : Scans line source result) :
    ∀ {tokens : List Token}, result = .ok tokens → ∃ pieces, Munches source pieces := by
  induction hscans with
  | done =>
    intro tokens _
    exact ⟨[], .done⟩
  | fault _ _ =>
    intro tokens hresult
    cases hresult
  | @piece _ piece text rest later hcut hfault _ ih =>
    intro tokens hresult
    cases later with
    | error d => cases hresult
    | ok found =>
      obtain ⟨pieces, hpieces⟩ := ih rfl
      exact ⟨(piece, text) :: pieces, .piece (hcut.longest hfault) hpieces⟩

end Scans

namespace Munches

variable {source : List Char} {pieces : List (Piece × List Char)}

/-- The pieces are the whole source. -/
theorem flatten (hmunches : Munches source pieces) :
    (pieces.map Prod.snd).flatten = source := by
  induction hmunches with
  | done => rfl
  | piece _ _ ih => rw [List.map_cons, List.flatten_cons, ih]

/-- A munch decides the run: there is no fault in it, and its tokens stand for the pieces that are
no gaps. -/
theorem scans_ok (hmunches : Munches source pieces) :
    ∀ {line : Nat} {result : Except Diagnostic (List Token)}, Scans line source result →
      ∃ (body : List Token) (stop : Nat), result = .ok (body ++ [.endMarker stop]) ∧
        List.Forall₂ Token.StandsFor (pieces.filter (·.1 ≠ .gap)) body := by
  induction hmunches with
  | done =>
    intro line result hscans
    exact ⟨[], line, hscans.at_end rfl, .nil⟩
  | @piece piece text rest pieces hlongest _ ih =>
    intro line result hscans
    obtain ⟨later, hlater, rfl⟩ := hscans.behind_longest hlongest rfl
    obtain ⟨body, stop, rfl, hbody⟩ := ih hlater
    -- a gap leaves no token, and every other piece leaves one
    by_cases hgap : piece = .gap
    · refine ⟨body, stop, by rw [hgap]; rfl, ?_⟩
      rw [List.filter_cons_of_neg (by simp [hgap])]
      exact hbody
    · obtain ⟨m, hmeaning, hdenotes⟩ := hlongest.spelled.denotes hgap
      refine ⟨⟨m, String.ofList text, line + text.count '\n'⟩ :: body, stop, ?_, ?_⟩
      · rw [Piece.tokens, hmeaning]
        rfl
      · rw [List.filter_cons_of_pos (by simp [hgap])]
        exact .cons ⟨rfl, hdenotes⟩ hbody

end Munches

/-- **The scan is maximal munch.** A source has tokens exactly where taking the longest piece off
its front again and again uses it up. Then the pieces are the source, and the tokens are the pieces
that are no gaps, each with its text as lexeme and with its meaning, and behind them one end marker
with an empty lexeme. -/
theorem Token.scan_maximal_munch (source : String) :
    ((∃ tokens, Token.scan source = .ok tokens) ↔ ∃ pieces, Munches source.toList pieces) ∧
      ∀ pieces, Munches source.toList pieces →
        (pieces.map Prod.snd).flatten = source.toList ∧
        ∃ body marker, Token.scan source = .ok (body ++ [marker]) ∧
          List.Forall₂ Token.StandsFor (pieces.filter (·.1 ≠ .gap)) body ∧
          (∀ t ∈ body, t.isEnding = false) ∧ marker.meaning = .ending ∧ marker.lexeme = "" := by
  obtain ⟨result, hscans, hscan⟩ := Token.scan_scans source
  refine ⟨⟨?_, ?_⟩, ?_⟩
  · rintro ⟨tokens, htokens⟩
    rw [hscan] at htokens
    cases result with
    | error d => cases htokens
    | ok found => exact hscans.munches rfl
  · rintro ⟨pieces, hpieces⟩
    obtain ⟨body, stop, rfl, -⟩ := hpieces.scans_ok hscans
    exact ⟨_, hscan⟩
  · intro pieces hpieces
    obtain ⟨body, stop, rfl, hstand⟩ := hpieces.scans_ok hscans
    -- a run has one end marker only, and it is the last token in either description
    obtain ⟨others, last, hothers, hopen⟩ := hscans.terminated rfl
    rw [← List.append_inj_left' hothers rfl] at hopen
    exact ⟨hpieces.flatten, body, .endMarker stop, hscan, hstand, hopen, rfl, rfl⟩

/-- A word that begins as a keyword does, an operator of two characters and a string with a
character of two bytes, with nothing between them. -/
theorem Token.scan_maximal_munch_adjacent :
    Munches "iffy<=\"é\"".toList
        [(.word, "iffy".toList), (.symbol .lessEqual, "<=".toList), (.string, "\"é\"".toList)] ∧
      ∃ body marker, Token.scan "iffy<=\"é\"" = .ok (body ++ [marker]) ∧
        body.map Token.lexeme = ["iffy", "<=", "\"é\""] := by
  have hletters : ∀ x ∈ ['f', 'f', 'y'], isWordChar x = true := List.all_eq_true.1 rfl
  have hword : Piece.Longest .word "iffy".toList "<=\"é\"".toList :=
    (Cut.word rfl hletters (by rintro x ⟨⟩; rfl)).longest
      (rfl : Piece.word.fault? 0 0 "iffy".toList = none)
  have hoperator : Piece.Longest (.symbol .lessEqual) "<=".toList "\"é\"".toList :=
    (Cut.long rfl).longest (rfl : (Piece.symbol .lessEqual).fault? 0 0 "<=".toList = none)
  have hquoted : Cut .string ('"' :: (['é'] ++ ['"'])) [] := .string (by simp)
  have hstring : Piece.Longest .string "\"é\"".toList [] :=
    hquoted.longest (rfl : Piece.string.fault? 0 0 "\"é\"".toList = none)
  have hmunches : Munches "iffy<=\"é\"".toList
      [(.word, "iffy".toList), (.symbol .lessEqual, "<=".toList), (.string, "\"é\"".toList)] :=
    .piece hword (.piece hoperator (.piece hstring .done))
  refine ⟨hmunches, ?_⟩
  obtain ⟨-, body, marker, hscan, hstand, -⟩ := (scan_maximal_munch _).2 _ hmunches
  refine ⟨body, marker, hscan, ?_⟩
  rcases hstand with _ | ⟨hfirst, _ | ⟨hsecond, _ | ⟨hthird, _ | _⟩⟩⟩
  rw [List.map_cons, List.map_cons, List.map_cons, hfirst.1, hsecond.1, hthird.1]
  rfl

end Lox
