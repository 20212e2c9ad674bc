/-
Two sources with a line feed between them.

No piece but a string or a comment that was never ended goes on behind the end of a source when a
line feed follows, and a comment ends there all the same. So a source that can be scanned leaves the
same tokens when it stands in front of a line feed and another source, and the scan goes on behind
the line feed as the other source's own scan would, further down by as many lines as the first one
has. Lines are all that a scan knows of where it stands.

That this is what the scan of the whole comes to, and not only one way to cut it, needs that there
is only one: where a piece is cut off, no other piece is (`Cut.unique`).
-/
import Lox.Proofs.Lexing.Munch

set_option autoImplicit false

namespace Lox

/-! ## Further down -/

/-- The same token `n` lines further down. -/
def Token.later (n : Nat) (t : Token) : Token :=
  { t with line := t.line + n }

/-- The same diagnostic `n` lines further down. -/
def Diagnostic.later (n : Nat) (d : Diagnostic) : Diagnostic :=
  { d with line := d.line + n }

namespace Piece

theorem fault?_later (n first last : Nat) (piece : Piece) (text : List Char) :
    piece.fault? (first + n) (last + n) text =
      (piece.fault? first last text).map (Diagnostic.later n) := by
  cases piece <;> rfl

theorem tokens_later (n last : Nat) (piece : Piece) (text : List Char) :
    piece.tokens (last + n) text = (piece.tokens last text).map (Token.later n) := by
  rw [tokens, tokens]
  cases piece.meaning? text <;> rfl

end Piece

/-- A run from a line further down is the same run further down. -/
theorem Scans.later (n : Nat) {line : Nat} {source : List Char}
    {result : Except Diagnostic (List Token)} (hscans : Scans line source result) :
    Scans (line + n) source
      ((result.map (·.map (Token.later n))).mapError (Diagnostic.later n)) := by
  induction hscans with
  | done line => exact .done (line + n)
  | @fault line piece text rest d hcut hfault =>
    have hfault' : piece.fault? (line + n) (line + n + text.count '\n') text =
        some (d.later n) := by
      rw [Nat.add_right_comm, Piece.fault?_later, hfault]
      rfl
    exact .fault hcut hfault'
  | @piece line piece text rest result hcut hfault _ ih =>
    have hfault' : piece.fault? (line + n) (line + n + text.count '\n') text = none := by
      rw [Nat.add_right_comm, Piece.fault?_later, hfault]
      rfl
    rw [Nat.add_right_comm] at ih
    have htokens := Piece.tokens_later n (line + text.count '\n') piece text
    have hscans := Scans.piece hcut hfault' ih
    rw [Nat.add_right_comm line n, htokens] at hscans
    cases result with
    | error d => exact hscans
    | ok found =>
      simp only [Except.map, Except.mapError, List.map_append] at hscans ⊢
      exact hscans

/-! ## Only one way -/

/-- Two cuts in front of one text are the same. -/
theorem Cut.unique {piece other : Piece} {text rest front back : List Char}
    (hcut : Cut piece text rest) (hother : Cut other front back)
    (hsource : text ++ rest = front ++ back) : piece = other ∧ text = front ∧ rest = back := by
  by_cases hclean : other.fault? 0 0 front = none
  · exact (hcut.eq_of_longest (hother.longest hclean) hsource).2
  by_cases hclean' : piece.fault? 0 0 text = none
  · obtain ⟨rfl, rfl, rfl⟩ := (hother.eq_of_longest (hcut.longest hclean') hsource.symm).2
    exact ⟨rfl, rfl, rfl⟩
  -- two faults: the first character tells an open string from a stray character
  cases hcut with
  | openString hbody =>
    cases hother with
    | openString hbody' =>
      rw [List.append_nil, List.append_nil] at hsource
      exact ⟨rfl, hsource, rfl⟩
    | stray _ _ _ _ hquote _ _ => exact absurd (List.cons.inj hsource).1.symm hquote
    | _ => exact absurd rfl hclean
  | stray _ _ _ _ hquote _ _ =>
    cases hother with
    | openString hbody' => exact absurd (List.cons.inj hsource).1 hquote
    | stray _ _ _ _ _ _ _ =>
      obtain ⟨rfl, rfl⟩ := List.cons.inj hsource
      exact ⟨rfl, rfl, rfl⟩
    | _ => exact absurd rfl hclean
  | _ => exact absurd rfl hclean'

/-- A source has one run only from each line. -/
theorem Scans.unique {line : Nat} {source : List Char} {result : Except Diagnostic (List Token)}
    (hscans : Scans line source result) :
    ∀ {source' : List Char} {result' : Except Diagnostic (List Token)},
      Scans line source' result' → source = source' → result = result' := by
  induction hscans with
  | done line =>
    intro source' result' hscans' hsource
    exact (hscans'.at_end hsource.symm).symm
  | @fault line piece text rest d hcut hfault =>
    intro source' result' hscans' hsource
    cases hscans' with
    | done => exact absurd (List.append_eq_nil_iff.1 hsource).1 hcut.ne_nil
    | fault hcut' hfault' =>
      obtain ⟨rfl, rfl, rfl⟩ := hcut.unique hcut' hsource
      rw [hfault] at hfault'
      rw [Option.some.inj hfault']
    | piece hcut' hfault' _ =>
      obtain ⟨rfl, rfl, rfl⟩ := hcut.unique hcut' hsource
      rw [hfault] at hfault'
      cases hfault'
  | @piece line piece text rest result hcut hfault _ ih =>
    intro source' result' hscans' hsource
    cases hscans' with
    | done => exact absurd (List.append_eq_nil_iff.1 hsource).1 hcut.ne_nil
    | fault hcut' hfault' =>
      obtain ⟨rfl, rfl, rfl⟩ := hcut.unique hcut' hsource
      rw [hfault] at hfault'
      cases hfault'
    | piece hcut' _ hlater =>
      obtain ⟨rfl, rfl, rfl⟩ := hcut.unique hcut' hsource
      rw [ih hlater rfl]

/-- What a run comes to is what the scan comes to. -/
theorem Token.scan_of_scans {source : String} {result : Except Diagnostic (List Token)}
    (hscans : Scans 1 source.toList result) : Token.scan source = result.mapError .fault := by
  obtain ⟨result', hscans', hscan⟩ := Token.scan_scans source
  rw [hscan, hscans.unique hscans' rfl]

/-! ## The seam -/

section Ahead

variable {rest more : List Char}

/-- A blank goes on with no piece. -/
theorem isBlank_ahead {c : Char} (h : isBlank c = true) :
    c ≠ '=' ∧ c ≠ '/' ∧ c ≠ '.' ∧ c.isDigit = false ∧ isWordChar c = false := by
  rw [isBlank_iff] at h
  simp only [List.mem_cons, List.not_mem_nil, or_false] at h
  rcases h with rfl | rfl | rfl | rfl | rfl <;> decide

/-- The next character is the same one as it was, or it is one that serves as well. -/
theorem head?_ahead {p q : Char → Prop} (hrest : ∀ x ∈ rest.head?, p x)
    (hhead : ∀ x ∈ more.head?, x ∈ rest.head? ∨ q x) (hserves : ∀ x, q x → p x) :
    ∀ x ∈ more.head?, p x := by
  intro x hx
  rcases hhead x hx with hsame | hq
  · exact hrest x hsame
  · exact hserves x hq

/-- What was looked at to end a piece may be all that stays of the rest. A blank in its place ends
every piece too, if it is a line feed where the piece is a comment; and behind a point only a digit
matters. -/
theorem Cut.of_ahead {piece : Piece} {text : List Char} (hcut : Cut piece text rest)
    {first last : Nat} (hfault : piece.fault? first last text = none)
    (hhead : ∀ x ∈ more.head?, x ∈ rest.head? ∨ (isBlank x = true ∧ (piece = .gap → x = '\n')))
    (hpoint : ∀ x behind, more = '.' :: x :: behind → x.isDigit = true →
      ∃ behind', rest = '.' :: x :: behind') : Cut piece text more := by
  cases hcut with
  | lone hlone => exact .lone hlone
  | short hpair hequals =>
    have hne : ∀ x ∈ rest.head?, x ≠ '=' := fun x hx h => hequals (h ▸ hx)
    have hne' := head?_ahead hne hhead fun x hx => (isBlank_ahead hx.1).1
    exact .short hpair fun hx => hne' '=' hx rfl
  | long hpair => exact .long hpair
  | slash hslash =>
    have hne : ∀ x ∈ rest.head?, x ≠ '/' := fun x hx h => hslash (h ▸ hx)
    have hne' := head?_ahead hne hhead fun x hx => (isBlank_ahead hx.1).2.1
    exact .slash fun hx => hne' '/' hx rfl
  | comment hbody hstop =>
    exact .comment hbody (head?_ahead hstop hhead fun x hx => hx.2 rfl)
  | blank hblank => exact .blank hblank
  | string hbody => exact .string hbody
  | openString hbody => cases hfault
  | whole hc hdigits hstop hpoint' =>
    have hstop' := head?_ahead hstop hhead fun x hx => (isBlank_ahead hx.1).2.2.2.1
    refine .whole hc hdigits hstop' fun x behind hmore => ?_
    cases hx : x.isDigit with
    | false => rfl
    | true =>
      -- the point and the digit would have been there before
      obtain ⟨behind', hrest⟩ := hpoint x behind hmore hx
      rw [hpoint' x behind' hrest] at hx
      cases hx
  | decimal hc hdigits hx hplaces hstop =>
    exact .decimal hc hdigits hx hplaces
      (head?_ahead hstop hhead fun x hx => (isBlank_ahead hx.1).2.2.2.1)
  | word hletter hbody hstop =>
    exact .word hletter hbody (head?_ahead hstop hhead fun x hx => (isBlank_ahead hx.1).2.2.2.2)
  | stray => cases hfault

/-- What was looked at to end a piece looks the same when a line feed and more is put behind it. -/
theorem Cut.append_lineFeed {piece : Piece} {text : List Char} (hcut : Cut piece text rest)
    {first last : Nat} (hfault : piece.fault? first last text = none) (more : List Char) :
    Cut piece text (rest ++ '\n' :: more) := by
  refine hcut.of_ahead hfault (fun x hx => ?_) fun x behind hrest hx => ?_
  · cases rest with
    | nil =>
      obtain rfl : '\n' = x := Option.some.inj hx
      exact .inr ⟨rfl, fun _ => rfl⟩
    | cons y rest => exact .inl hx
  · -- behind a point at the very end there is the line feed, which is no digit
    rcases rest with _ | ⟨y, _ | ⟨z, rest⟩⟩
    · cases (List.cons.inj hrest).1
    · obtain ⟨-, hbehind⟩ := List.cons.inj hrest
      rw [← (List.cons.inj hbehind).1] at hx
      cases hx
    · obtain ⟨rfl, hbehind⟩ := List.cons.inj hrest
      obtain ⟨rfl, -⟩ := List.cons.inj hbehind
      exact ⟨rest, rfl⟩

end Ahead

/-- A run without a fault goes on behind a line feed from the line below. Its end marker, which is
on the line of its last line feed, is left out. -/
theorem Scans.append_lineFeed {line : Nat} {source : List Char}
    {result : Except Diagnostic (List Token)} (hscans : Scans line source result) :
    ∀ {tokens : List Token}, result = .ok tokens →
      ∃ body, tokens = body ++ [.endMarker (line + source.count '\n')] ∧
        ∀ {more : List Char} {result' : Except Diagnostic (List Token)},
          Scans (line + source.count '\n' + 1) more result' →
          Scans line (source ++ '\n' :: more) (result'.map (body ++ ·)) := by
  induction hscans with
  | done line =>
    intro tokens hresult
    refine ⟨[], (Except.ok.inj hresult).symm, ?_⟩
    intro more result' hmore
    have hblank : Cut .gap ['\n'] more := .blank rfl
    exact .piece hblank rfl hmore
  | fault _ _ =>
    intro tokens hresult
    cases hresult
  | @piece line piece text rest later hcut hfault _ ih =>
    intro tokens hresult
    cases later with
    | error d => cases hresult
    | ok found =>
      obtain ⟨body, rfl, hbody⟩ := ih rfl
      have hcount : line + (text ++ rest).count '\n' =
          line + text.count '\n' + rest.count '\n' := by
        rw [List.count_append, Nat.add_assoc]
      refine ⟨piece.tokens (line + text.count '\n') text ++ body, ?_, ?_⟩
      · rw [← Except.ok.inj hresult, hcount, List.append_assoc]
      · intro more result' hmore
        rw [hcount] at hmore
        have hscans := Scans.piece (hcut.append_lineFeed hfault more) hfault (hbody hmore)
        rw [← List.append_assoc] at hscans
        cases result' with
        | error d => exact hscans
        | ok others =>
          simp only [Except.map, ← List.append_assoc] at hscans ⊢
          exact hscans

/-- The tokens of a source. Its end marker is on the line of its last line feed. -/
theorem Token.scan_body {source : String} {tokens : List Token}
    (hscan : Token.scan source = .ok tokens) :
    ∃ body, tokens = body ++ [.endMarker (1 + source.toList.count '\n')] ∧
      ∀ t ∈ body, t.isEnding = false := by
  have hscans := Token.scans_of_ok hscan
  obtain ⟨body, hbody, -⟩ := hscans.append_lineFeed rfl
  obtain ⟨body', stop, hbody', hopen⟩ := hscans.terminated rfl
  obtain rfl : body = body' := List.append_inj_left' (hbody.symm.trans hbody') rfl
  exact ⟨body, hbody, hopen⟩

/-- The scan of two sources with a line feed between them, if the first one has tokens: these
without the end marker, and what the other source comes to by itself, that many lines further
down. -/
theorem Token.scan_append_lineFeed {a : String} {tokens : List Token}
    (ha : Token.scan a = .ok tokens) (b : String) :
    ∃ body, tokens = body ++ [.endMarker (1 + a.toList.count '\n')] ∧
      (∀ others, Token.scan b = .ok others →
        Token.scan (a ++ "\n" ++ b) =
          .ok (body ++ others.map (Token.later (1 + a.toList.count '\n')))) ∧
      ∀ d, Token.scan b = .error (.fault d) →
        Token.scan (a ++ "\n" ++ b) = .error (.fault (d.later (1 + a.toList.count '\n'))) := by
  obtain ⟨resultB, hscansB, hscanB⟩ := Token.scan_scans b
  obtain ⟨body, hbody, hwhole⟩ := (Token.scans_of_ok ha).append_lineFeed rfl
  have hlist : (a ++ "\n" ++ b).toList = a.toList ++ '\n' :: b.toList := by
    rw [String.toList_append, String.toList_append, List.append_assoc]
    rfl
  have hlater := hscansB.later (1 + a.toList.count '\n')
  rw [Nat.add_comm 1 (1 + a.toList.count '\n')] at hlater
  have hscan := hwhole hlater
  rw [← hlist] at hscan
  refine ⟨body, hbody, ?_, ?_⟩
  · intro others hothers
    rw [Token.scan_of_scans hscan, Attempt.mapError_eq_ok_iff.1 (hscanB.symm.trans hothers)]
    rfl
  · intro d hd
    rw [Token.scan_of_scans hscan, Attempt.mapError_eq_fault_iff.1 (hscanB.symm.trans hd)]
    rfl

/-- **Scanning distributes over line feeds.** Behind a source that has tokens and a line feed, every
source is scanned as if it stood alone, as many lines further down as the line of the first one's
end marker says: it leaves its tokens behind those of the first one, whose end marker goes, or it
has its diagnostic. What the tokens are read as plays no part. -/
theorem Token.scan_distributes_over_lineFeed (a b : String) (tokens : List Token)
    (ha : Token.scan a = .ok tokens) :
    ∃ body marker, tokens = body ++ [marker] ∧ (∀ t ∈ body, t.isEnding = false) ∧
      marker.isEnding = true ∧
      (∀ others, Token.scan b = .ok others →
        Token.scan (a ++ "\n" ++ b) = .ok (body ++ others.map (Token.later marker.line))) ∧
      ∀ failure, Token.scan b = .error failure →
        ∃ d, failure = .fault d ∧
          Token.scan (a ++ "\n" ++ b) = .error (.fault (d.later marker.line)) := by
  obtain ⟨body, hbody, hok, hfault⟩ := Token.scan_append_lineFeed ha b
  obtain ⟨body', hbody', hopen⟩ := Token.scan_body ha
  obtain rfl : body = body' := List.append_inj_left' (hbody.symm.trans hbody') rfl
  refine ⟨body, _, hbody, hopen, rfl, hok, fun failure hb => ?_⟩
  obtain ⟨d, rfl, -⟩ := Token.scans_of_error hb
  exact ⟨d, rfl, hfault d hb⟩

/-- A source of two lines with a comment up to the seam, in front of a word and in front of a
character that no piece begins with. -/
theorem Token.scan_distributes_over_lineFeed_comment :
    let text : Token := ⟨.string "\n", "\"\n\"", 2⟩
    Token.scan "\"\n\"//" = .ok [text, .endMarker 2] ∧
      Token.scan ("\"\n\"//" ++ "\n" ++ "nil") =
        .ok [text, ⟨.keyword .nil_, "nil", 3⟩, .endMarker 3] ∧
      Token.scan ("\"\n\"//" ++ "\n" ++ "@") =
        .error (.fault ⟨3, "@", "Unexpected character '@'."⟩) := by
  intro text
  have hstring : Cut .string ('"' :: (['\n'] ++ ['"'])) ['/', '/'] := .string (by simp)
  have hcomment : Cut .gap "//".toList [] := .comment (by simp) (by rintro x ⟨⟩)
  have hword : Cut .word "nil".toList [] :=
    .word rfl (List.all_eq_true.1 rfl) (by rintro x ⟨⟩)
  have hstray : Cut (.stray '@') ['@'] [] :=
    .stray rfl rfl (by decide) rfl (by decide) rfl rfl
  have hscansA : Scans 1 ('"' :: (['\n'] ++ ['"']) ++ "//".toList) _ :=
    .piece hstring rfl (.piece hcomment rfl (.done _))
  have hscansB : Scans 1 ("nil".toList ++ []) _ := .piece hword rfl (.done _)
  have ha : Token.scan "\"\n\"//" = .ok ([text] ++ [.endMarker 2]) :=
    Token.scan_of_scans (show Scans 1 "\"\n\"//".toList _ from hscansA)
  have hnil : Token.scan "nil" = .ok [⟨.keyword .nil_, "nil", 1⟩, .endMarker 1] :=
    Token.scan_of_scans (show Scans 1 "nil".toList _ from hscansB)
  have hfault : Token.scan "@" = .error (.fault ⟨1, "@", "Unexpected character '@'."⟩) :=
    Token.scan_of_scans (show Scans 1 "@".toList _ from .fault hstray rfl)
  obtain ⟨body, marker, hbody, -, -, hok, -⟩ :=
    Token.scan_distributes_over_lineFeed _ "nil" _ ha
  obtain ⟨body', marker', hbody', -, -, -, hfails⟩ :=
    Token.scan_distributes_over_lineFeed _ "@" _ ha
  -- both splits of the tokens are the one in front of the end marker
  obtain ⟨rfl, hmarker⟩ := List.append_inj' hbody rfl
  obtain ⟨-, hmarker'⟩ := List.append_inj' hbody' rfl
  obtain rfl := (List.cons.inj hmarker).1
  obtain rfl := (List.cons.inj hmarker').1
  obtain ⟨d, hd, hwhole⟩ := hfails _ hfault
  obtain rfl := Failure.fault.inj hd
  exact ⟨ha, hok _ hnil, hwhole⟩

end Lox
