/-
Tokens spaced anew.

What stands between two tokens is never part of what they mean. If tokens are written one after the
other with blanks and comments between them, they are scanned as they were, whatever sources they
came from. Only two things matter: something has to stand between two of them, and it has to begin
with a blank, since a slash would be taken for an operator or turn one into a comment.

The reason is that every piece ends in front of a blank. The scanner looks ahead for an equals sign,
a slash, a point, a digit or a letter, and a blank is none of these. So a cut that was made once is
made again wherever a blank or the end of the text follows (`Cut.in_front_of_blank`).
-/
import Lox.Proofs.Lexing.Seam

set_option autoImplicit false

namespace Lox

/-! ## Separators -/

/-- Blanks and comments. Each comment is ended by a line feed, the last one of a text by the end of
the text if it likes. -/
inductive Separator (last : Bool) : List Char → Prop
  | nil : Separator last []
  | blank {c : Char} {rest : List Char} : c ∈ [' ', '\r', '\t', '\x0c', '\n'] →
      Separator last rest → Separator last (c :: rest)
  | comment {body rest : List Char} : (∀ x ∈ body, x ≠ '\n') → Separator last rest →
      Separator last ('/' :: '/' :: (body ++ '\n' :: rest))
  | openComment {body : List Char} : last = true → (∀ x ∈ body, x ≠ '\n') →
      Separator last ('/' :: '/' :: body)

/-- The lexemes of the tokens, each with the gap behind it, and one gap in front of them all. -/
def respaced (gap : String) : List (Token × String) → String
  | [] => gap
  | (t, behind) :: more => gap ++ t.lexeme ++ respaced behind more

/-- The gaps are separators. Those between two tokens are not empty, and those behind a token begin
with a blank, if with anything. -/
def Spaced (gap : String) : List (Token × String) → Prop
  | [] => Separator true gap.toList
  | (_, behind) :: more =>
    Separator false gap.toList ∧ (more ≠ [] → behind ≠ "") ∧
      (∀ c ∈ behind.toList.head?, c ∈ [' ', '\r', '\t', '\x0c', '\n']) ∧ Spaced behind more

/-- The token is one of a source that can be scanned, and no end marker. -/
def Token.Scanned (t : Token) : Prop :=
  ∃ source tokens, Token.scan source = .ok tokens ∧ t ∈ tokens ∧ t.isEnding = false

/-! ## Gaps in a run -/

section Gaps

variable {line : Nat} {text more : List Char} {result : Except Diagnostic (List Token)}

/-- A gap leaves no token. -/
theorem Scans.behind_gap (hcut : Cut .gap text more)
    (hscans : Scans (line + text.count '\n') more result) : Scans line (text ++ more) result := by
  have hrun := Scans.piece hcut rfl hscans
  cases result with
  | error d => exact hrun
  | ok tokens => exact hrun

/-- What follows a separator is scanned as if it stood alone, further down. -/
theorem Separator.scans {last : Bool} (h : Separator last text) (hlast : last = true → more = [])
    (hscans : Scans (line + text.count '\n') more result) : Scans line (text ++ more) result := by
  induction h generalizing line with
  | nil => exact hscans
  | @blank c rest hblank _ ih =>
    have hcut : Cut .gap [c] (rest ++ more) := .blank (isBlank_iff.2 hblank)
    rw [← List.singleton_append, List.count_append, ← Nat.add_assoc] at hscans
    rw [← List.singleton_append, List.append_assoc]
    exact Scans.behind_gap hcut (ih hscans)
  | @comment body rest hbody _ ih =>
    -- the comment and the line feed that ends it are two pieces
    have hcut : Cut .gap ('/' :: '/' :: body) ('\n' :: (rest ++ more)) := .comment hbody (by simp)
    have hfeed : Cut .gap ['\n'] (rest ++ more) := .blank rfl
    have hsplit : '/' :: '/' :: (body ++ '\n' :: rest) =
        ('/' :: '/' :: body) ++ (['\n'] ++ rest) := rfl
    rw [hsplit, List.count_append, List.count_append, ← Nat.add_assoc, ← Nat.add_assoc] at hscans
    rw [hsplit, List.append_assoc, List.append_assoc]
    exact Scans.behind_gap hcut (Scans.behind_gap hfeed (ih hscans))
  | @openComment body hend hbody =>
    obtain rfl := hlast hend
    exact Scans.behind_gap (.comment hbody (by simp)) hscans

end Gaps

/-! ## Pieces in front of a blank -/

/-- A piece with a token is no fault. -/
theorem Piece.fault?_eq_none {piece : Piece} {text : List Char} {m : Meaning}
    (hmeaning : piece.meaning? text = some m) (first last : Nat) :
    piece.fault? first last text = none := by
  cases piece with
  | openString => cases hmeaning
  | stray => cases hmeaning
  | _ => rfl

/-- A piece with a token is cut off wherever a blank or the end of the text follows. -/
theorem Cut.in_front_of_blank {piece : Piece} {text rest : List Char} (hcut : Cut piece text rest)
    {m : Meaning} (hmeaning : piece.meaning? text = some m) {more : List Char}
    (hmore : ∀ x ∈ more.head?, isBlank x = true) : Cut piece text more := by
  refine hcut.of_ahead (Piece.fault?_eq_none hmeaning 0 0) (fun x hx => .inr ⟨hmore x hx, ?_⟩) ?_
  · rintro rfl
    cases hmeaning
  · -- no point follows, so it does not matter what stands behind one
    rintro x behind rfl -
    exact absurd rfl (isBlank_ahead (hmore '.' rfl)).2.2.1

/-- Every token of a run was cut off as a piece. -/
theorem Scans.cut_of_mem {line : Nat} {source : List Char} {result : Except Diagnostic (List Token)}
    (hscans : Scans line source result) :
    ∀ {tokens : List Token}, result = .ok tokens → ∀ t ∈ tokens, t.isEnding = false →
      ∃ piece rest, Cut piece t.lexeme.toList rest ∧
        piece.meaning? t.lexeme.toList = some t.meaning := by
  induction hscans with
  | done line =>
    rintro _ ⟨⟩ t ht hopen
    rw [List.mem_singleton.1 ht] at hopen
    cases hopen
  | fault _ _ =>
    intro tokens hresult
    cases hresult
  | @piece line piece text rest later hcut _ _ ih =>
    intro tokens hresult t ht hopen
    cases later with
    | error d => cases hresult
    | ok found =>
      rw [← Except.ok.inj hresult] at ht
      rcases List.mem_append.1 ht with ht | ht
      · rw [Piece.tokens, Option.mem_toList, Option.map_eq_some_iff] at ht
        obtain ⟨m, hmeaning, rfl⟩ := ht
        refine ⟨piece, rest, ?_, ?_⟩
        · rw [String.toList_ofList]
          exact hcut
        · rw [String.toList_ofList]
          exact hmeaning
      · exact ih rfl t ht hopen

/-! ## Runs over spaced tokens -/

theorem Token.Scanned.cut {t : Token} (h : t.Scanned) :
    ∃ piece rest, Cut piece t.lexeme.toList rest ∧
      piece.meaning? t.lexeme.toList = some t.meaning := by
  obtain ⟨source, tokens, hscan, ht, hopen⟩ := h
  exact (Token.scans_of_ok hscan).cut_of_mem rfl t ht hopen

/-- What follows a token begins with a blank, or it is the end of the text. -/
theorem head?_respaced {behind : String} {more : List (Token × String)}
    (hgap : more ≠ [] → behind ≠ "")
    (hblank : ∀ c ∈ behind.toList.head?, c ∈ [' ', '\r', '\t', '\x0c', '\n']) :
    ∀ c ∈ (respaced behind more).toList.head?, isBlank c = true := by
  intro c hc
  rw [isBlank_iff]
  apply hblank
  cases more with
  | nil => exact hc
  | cons p more =>
    -- the gap is not empty, so its first character is the one
    have hne : behind.toList ≠ [] := by
      rw [Ne, String.toList_eq_nil_iff]
      exact hgap (List.cons_ne_nil _ _)
    obtain ⟨d, rest, hcons⟩ := List.exists_cons_of_ne_nil hne
    rw [respaced, String.toList_append, String.toList_append, hcons] at hc
    rw [hcons]
    exact hc

/-- The run over spaced tokens: the induction is on the tokens, each being cut off in front of its
gap. -/
theorem Scans.respaced {gap : String} {pairs : List (Token × String)} (hspaced : Spaced gap pairs)
    (hscanned : ∀ p ∈ pairs, p.1.Scanned) :
    ∀ line : Nat, ∃ found stop, Scans line (respaced gap pairs).toList
        (.ok (found ++ [.endMarker stop])) ∧
      found.map (fun t => (t.meaning, t.lexeme)) =
        pairs.map fun p => (p.1.meaning, p.1.lexeme) := by
  induction pairs generalizing gap with
  | nil =>
    intro line
    have hgap : Separator true gap.toList := hspaced
    have hscans := hgap.scans (fun _ => rfl) (.done (line + gap.toList.count '\n'))
    rw [List.append_nil] at hscans
    exact ⟨[], _, hscans, rfl⟩
  | cons p more ih =>
    intro line
    obtain ⟨t, behind⟩ := p
    obtain ⟨hgap, hne, hblank, hmore⟩ := hspaced
    rw [List.forall_mem_cons] at hscanned
    obtain ⟨piece, rest, hcut, hmeaning⟩ := hscanned.1.cut
    have hcut' := hcut.in_front_of_blank hmeaning (head?_respaced hne hblank)
    -- where it came from the token was cut off in front of something else
    let first := line + gap.toList.count '\n'
    let last := first + t.lexeme.toList.count '\n'
    obtain ⟨found, stop, hscans, hfound⟩ := ih hmore hscanned.2 last
    have htoken := Scans.piece hcut' (Piece.fault?_eq_none hmeaning first last) hscans
    have hlist : (Lox.respaced gap ((t, behind) :: more)).toList =
        gap.toList ++ (t.lexeme.toList ++ (Lox.respaced behind more).toList) := by
      rw [Lox.respaced, String.toList_append, String.toList_append, List.append_assoc]
    refine ⟨⟨t.meaning, t.lexeme, last⟩ :: found, stop, ?_, ?_⟩
    · rw [hlist]
      refine hgap.scans Bool.noConfusion ?_
      rw [Piece.tokens, hmeaning, String.ofList_toList] at htoken
      exact htoken
    · rw [List.map_cons, List.map_cons, hfound]

/-- **Spacing does not matter.** Scanned tokens that are written one after the other, with blanks
and comments in front, between and behind, are scanned as the same tokens: each has its meaning and
its lexeme, and only the lines are new. -/
theorem Token.scan_respaced (gap : String) (pairs : List (Token × String))
    (hscanned : ∀ p ∈ pairs, p.1.Scanned) (hspaced : Spaced gap pairs) :
    ∃ found marker, Token.scan (respaced gap pairs) = .ok (found ++ [marker]) ∧
      found.map (fun t => (t.meaning, t.lexeme)) =
        pairs.map (fun p => (p.1.meaning, p.1.lexeme)) ∧
      marker.meaning = .ending ∧ marker.lexeme = "" := by
  obtain ⟨found, stop, hscans, hfound⟩ := Scans.respaced hspaced hscanned 1
  exact ⟨found, .endMarker stop, Token.scan_of_scans hscans, hfound, rfl, rfl⟩

/-- A word and a slash from two sources, with comments in front, between and behind that hold what
would be faults and keywords outside of them. -/
theorem Token.scan_respaced_comments :
    let word : Token := ⟨.keyword .nil_, "nil", 1⟩
    let slash : Token := ⟨.symbol .slash, "/", 1⟩
    let pairs : List (Token × String) := [(word, " //\"\n"), (slash, "\t//print")]
    (∀ p ∈ pairs, p.1.Scanned) ∧ Spaced "//@\n" pairs ∧
      ∃ found marker, Token.scan "//@\nnil //\"\n/\t//print" = .ok (found ++ [marker]) ∧
        found.map (fun t => (t.meaning, t.lexeme)) =
          [(.keyword .nil_, "nil"), (.symbol .slash, "/")] := by
  intro word slash pairs
  have hwordCut : Cut .word "nil".toList [] :=
    .word rfl (List.all_eq_true.1 rfl) (by rintro x ⟨⟩)
  have hslashCut : Cut (.symbol .slash) ['/'] [] := .slash (by simp)
  have hwordScans : Scans 1 ("nil".toList ++ []) _ := .piece hwordCut rfl (.done _)
  have hslashScans : Scans 1 (['/'] ++ []) _ := .piece hslashCut rfl (.done _)
  have hword : word.Scanned := ⟨"nil", [word, .endMarker 1],
    Token.scan_of_scans (show Scans 1 "nil".toList _ from hwordScans), by simp, rfl⟩
  have hslash : slash.Scanned := ⟨"/", [slash, .endMarker 1],
    Token.scan_of_scans (show Scans 1 "/".toList _ from hslashScans), by simp, rfl⟩
  have hscanned : ∀ p ∈ pairs, p.1.Scanned := by
    simp only [pairs, List.forall_mem_cons]
    exact ⟨hword, hslash, by simp⟩
  have hfront : Separator false "//@\n".toList :=
    .comment (show ∀ x ∈ ['@'], x ≠ '\n' by simp) .nil
  have hbetween : Separator false " //\"\n".toList :=
    .blank (isBlank_iff.1 rfl) (.comment (show ∀ x ∈ ['"'], x ≠ '\n' by simp) .nil)
  have hbehind : Separator true "\t//print".toList :=
    .blank (isBlank_iff.1 rfl) (.openComment rfl (show ∀ x ∈ "print".toList, x ≠ '\n' by simp))
  have hspaced : Spaced "//@\n" pairs :=
    ⟨hfront, by simp, by simp, hbetween, by simp, by simp, hbehind⟩
  obtain ⟨found, marker, hscan, hfound, -, -⟩ := Token.scan_respaced _ pairs hscanned hspaced
  exact ⟨hscanned, hspaced, found, marker, hscan, hfound⟩

end Lox
