/-
Where a scan gets stuck.

A scan that fails has taken the longest piece again and again, up to a place where there is none. So
its fault is the leftmost one there can be, and there are two sorts of it only: a character that no
piece begins with, and a quotation mark without another one behind it. Characters of the first sort
and single quotation marks in strings and comments are parts of pieces and no faults.

What a text goes on with does not change the pieces in front of a fault: each of them was ended by
what stands in front of the fault or by its first character. The first sort of fault stays the same
whatever follows, and the second one does until another quotation mark comes.
-/
import Lox.Proofs.Lexing.Seam

set_option autoImplicit false

namespace Lox

/-! ## Munching in front of a place -/

/-- In front of the rest, taking the longest piece off the front again and again takes off these
pieces and uses up the text. The rest is in sight all the time, so no piece ends only because the
text does. -/
inductive MunchesBefore (rest : List Char) : List Char → List (Piece × List Char) → Prop
  | done : MunchesBefore rest [] []
  | piece {piece : Piece} {text front : List Char} {pieces : List (Piece × List Char)} :
      piece.Longest text (front ++ rest) → MunchesBefore rest front pieces →
      MunchesBefore rest (text ++ front) ((piece, text) :: pieces)

/-- The longest piece is the one that the scanner cuts off. -/
theorem Piece.Longest.cut {piece : Piece} {text rest : List Char} (h : piece.Longest text rest) :
    Cut piece text rest ∧ ∀ first last, piece.fault? first last text = none := by
  obtain ⟨c, behind, rfl⟩ := List.exists_cons_of_ne_nil h.spelled.ne_nil
  -- there is always a cut, and where there is a longest piece they are the same
  let place := Cursor.start (String.ofList (c :: behind ++ rest))
  have hrest : place.rest = c :: (behind ++ rest) := String.toList_ofList
  have hnext : place.next = (some c, place.pass c (behind ++ rest)) := by
    rw [Cursor.next, hrest]
  obtain ⟨more, hpasses, hcut⟩ := Piece.read_behind hnext
  have hsource : c :: more ++ (Piece.read c (place.pass c (behind ++ rest))).2.rest =
      c :: behind ++ rest := hpasses.rest.symm.trans hrest
  obtain ⟨hclean, hpiece, htext, hbehind⟩ := hcut.eq_of_longest h hsource
  rw [hpiece, htext, hbehind] at hcut
  rw [hpiece, htext] at hclean
  exact ⟨hcut, hclean⟩

/-- With less behind it, the longest piece has fewer rivals. -/
theorem Piece.Longest.of_append {piece : Piece} {text front rest : List Char}
    (h : piece.Longest text (front ++ rest)) : piece.Longest text front where
  spelled := h.spelled
  longest other text' hspelled hbegins := by
    refine h.longest other text' hspelled (hbegins.trans ?_)
    rw [← List.append_assoc]
    exact List.prefix_append _ _

namespace MunchesBefore

variable {front rest : List Char} {pieces : List (Piece × List Char)}

/-- By itself the text is used up by the same pieces. -/
theorem munches (h : MunchesBefore rest front pieces) : Munches front pieces := by
  induction h with
  | done => exact .done
  | piece hlongest _ ih => exact .piece hlongest.of_append ih

/-- A scan comes to the rest, and where it fails there it fails as a whole. -/
theorem scans_error (h : MunchesBefore rest front pieces) :
    ∀ {line : Nat} {d : Diagnostic}, Scans (line + front.count '\n') rest (.error d) →
      Scans line (front ++ rest) (.error d) := by
  induction h with
  | done =>
    intro line d hscans
    exact hscans
  | @piece piece text front pieces hlongest _ ih =>
    intro line d hscans
    obtain ⟨hcut, hclean⟩ := hlongest.cut
    rw [List.count_append, ← Nat.add_assoc] at hscans
    rw [List.append_assoc]
    exact .piece hcut (hclean _ _) (ih hscans)

/-- What the rest goes on with changes no piece in front of it. The longest look ahead is the one at
a point and the character behind it; where the rest does not begin with the point, both of them are
in sight already. -/
theorem append {c : Char} (h : MunchesBefore (c :: rest) front pieces) (hc : c ≠ '.')
    (more : List Char) : MunchesBefore (c :: rest ++ more) front pieces := by
  induction h with
  | done => exact .done
  | @piece piece text front pieces hlongest _ ih =>
    obtain ⟨hcut, hclean⟩ := hlongest.cut
    have hcut' : Cut piece text (front ++ (c :: rest ++ more)) := by
      refine hcut.of_ahead (hclean 0 0) (fun x hx => .inl ?_) fun x behind hahead _ => ?_
      · cases front with
        | nil => exact hx
        | cons y front => exact hx
      · rcases front with _ | ⟨y, _ | ⟨z, front⟩⟩
        · exact absurd (List.cons.inj hahead).1 hc
        · obtain ⟨rfl, hbehind⟩ := List.cons.inj hahead
          obtain ⟨rfl, -⟩ := List.cons.inj hbehind
          exact ⟨rest, rfl⟩
        · obtain ⟨rfl, hbehind⟩ := List.cons.inj hahead
          obtain ⟨rfl, -⟩ := List.cons.inj hbehind
          exact ⟨front ++ c :: rest, rfl⟩
    exact .piece (hcut'.longest (hclean 0 0)) ih

end MunchesBefore

/-! ## Where no piece begins -/

/-- No piece begins with this character. -/
def BeginsNoPiece (c : Char) : Prop :=
  ∀ (piece : Piece) (text : List Char), piece.Spelled text → text.head? ≠ some c

/-- A scan gets stuck in front of the text, which begins on this line, with the diagnostic: its
first character begins no piece, or it is a quotation mark and there is no other one. -/
inductive Stuck (line : Nat) : List Char → Diagnostic → Prop
  | stray {c : Char} {rest : List Char} : BeginsNoPiece c →
      Stuck line (c :: rest) ⟨line, c.toString, (LexicalFault.unexpectedCharacter c).message⟩
  | openString {body : List Char} : (∀ x ∈ body, x ≠ '"') →
      Stuck line ('"' :: body)
        ⟨line, String.ofList ('"' :: body), LexicalFault.unterminatedString.message⟩

/-- What begins no piece is what the scanner finds to be stray. -/
theorem beginsNoPiece_iff_cut {c : Char} {rest : List Char} :
    BeginsNoPiece c ↔ Cut (.stray c) [c] rest := by
  constructor
  · intro h
    -- every test of the scanner that succeeds on a character would give a piece
    have hother : ∀ {piece : Piece} {more : List Char}, ¬ piece.Spelled (c :: more) :=
      fun hspelled => h _ _ hspelled rfl
    refine .stray ?_ ?_ ?_ ?_ ?_ ?_ ?_
    · cases hlone : Symbol.ofChar? c with
      | none => rfl
      | some s => exact absurd (by rw [Symbol.text_of_ofChar? hlone]; rfl) (h _ _ (.symbol s))
    · cases hpair : Symbol.pairOfChar? c with
      | none => rfl
      | some pair =>
        obtain ⟨short, long⟩ := pair
        exact absurd (by rw [(Symbol.text_of_pairOfChar? hpair).1]; rfl) (h _ _ (.symbol short))
    · rintro rfl
      exact hother (.symbol .slash)
    · rw [Bool.eq_false_iff]
      exact fun hblank => hother (.blank (isBlank_iff.1 hblank))
    · rintro rfl
      have hempty : Piece.Spelled .string ('"' :: ([] ++ ['"'])) := .string (by simp)
      exact hother hempty
    · rw [Bool.eq_false_iff]
      intro hdigit
      have hdigits : ∀ x ∈ [c], x.isDigit = true := by simpa using hdigit
      exact hother (.whole (List.cons_ne_nil _ _) hdigits)
    · rw [Bool.eq_false_iff]
      intro hletter
      have hword : Piece.Spelled .word [c] := .word (isLetter_iff.1 hletter) (by simp)
      exact hother hword
  · intro hcut piece text hspelled hhead
    obtain ⟨more, rfl⟩ := List.head?_eq_some_iff.1 hhead
    -- the scanner cuts the character off in front of anything, also of what follows it here
    have hcut' : Cut (.stray c) [c] more := by
      cases hcut with
      | stray hlone hpair hslash hblank hquote hdigit hletter =>
        exact .stray hlone hpair hslash hblank hquote hdigit hletter
    have hclean := (hcut'.maximal hspelled (List.prefix_refl _)).1 0 0
    cases hclean

/-- A stray character is no line feed, so it is on the line where it begins. -/
theorem Cut.fault?_stray {c : Char} {rest : List Char} (hcut : Cut (.stray c) [c] rest)
    (line : Nat) :
    (Piece.stray c).fault? line (line + [c].count '\n') [c] =
      some ⟨line, c.toString, (LexicalFault.unexpectedCharacter c).message⟩ := by
  have hfeed : '\n' ∉ [c] := by
    intro hmem
    cases hcut with
    | stray _ _ _ hblank _ _ _ =>
      rw [← List.mem_singleton.1 hmem] at hblank
      exact absurd hblank (by decide)
  rw [List.count_eq_zero.2 hfeed]
  rfl

/-- A scan is stuck just where it cuts off a fault. -/
theorem stuck_iff {line : Nat} {source : List Char} {d : Diagnostic} :
    Stuck line source d ↔ ∃ piece text rest, source = text ++ rest ∧ Cut piece text rest ∧
      piece.fault? line (line + text.count '\n') text = some d := by
  constructor
  · intro h
    cases h with
    | @stray c rest hnone =>
      have hcut : Cut (.stray c) [c] rest := beginsNoPiece_iff_cut.1 hnone
      exact ⟨_, _, _, rfl, hcut, hcut.fault?_stray line⟩
    | @openString body hbody =>
      exact ⟨_, _, _, (List.append_nil _).symm, .openString hbody, rfl⟩
  · rintro ⟨piece, text, rest, rfl, hcut, hfault⟩
    cases hcut with
    | openString hbody =>
      rw [← Option.some.inj hfault, List.append_nil]
      exact .openString hbody
    | @stray c rest hlone hpair hslash hblank hquote hdigit hletter =>
      have hcut : Cut (.stray c) [c] rest :=
        .stray hlone hpair hslash hblank hquote hdigit hletter
      rw [hcut.fault?_stray line] at hfault
      rw [← Option.some.inj hfault]
      exact .stray (beginsNoPiece_iff_cut.2 hcut)
    | _ => cases hfault

namespace Stuck

variable {line : Nat} {source : List Char} {d : Diagnostic}

theorem scans (h : Stuck line source d) : Scans line source (.error d) := by
  obtain ⟨piece, text, rest, rfl, hcut, hfault⟩ := stuck_iff.1 h
  exact .fault hcut hfault

/-- There is no piece to go on with. -/
theorem not_spelled (h : Stuck line source d) (other : Piece) (text : List Char)
    (hspelled : other.Spelled text) : ¬ text <+: source := by
  obtain ⟨piece, front, rest, rfl, hcut, hfault⟩ := stuck_iff.1 h
  intro hbegins
  rw [(hcut.maximal hspelled hbegins).1] at hfault
  cases hfault

/-- No piece goes on with the first character of what a scan is stuck in front of. -/
theorem head (h : Stuck line source d) : ∃ c rest, source = c :: rest ∧ c ≠ '.' := by
  cases h with
  | @stray c rest hnone =>
    refine ⟨c, rest, rfl, ?_⟩
    rintro rfl
    exact hnone _ _ (.symbol .dot) rfl
  | @openString body _ => exact ⟨'"', body, rfl, by decide⟩

end Stuck

/-- A run that fails comes to where it is stuck, by the longest pieces: the induction is on the run,
whose every cut in front of the fault is longest. -/
theorem Scans.stuck {line : Nat} {source : List Char} {result : Except Diagnostic (List Token)}
    (hscans : Scans line source result) :
    ∀ {d : Diagnostic}, result = .error d → ∃ front rest pieces, source = front ++ rest ∧
      MunchesBefore rest front pieces ∧ Stuck (line + front.count '\n') rest d := by
  induction hscans with
  | done =>
    intro d hresult
    cases hresult
  | fault hcut hfault =>
    intro d hresult
    rw [← Except.error.inj hresult]
    exact ⟨[], _, [], rfl, .done, stuck_iff.2 ⟨_, _, _, rfl, hcut, hfault⟩⟩
  | @piece line piece text rest later hcut hfault _ ih =>
    intro d hresult
    cases later with
    | ok found => cases hresult
    | error found =>
      obtain rfl : found = d := Except.error.inj hresult
      obtain ⟨front, behind, pieces, rfl, hmunches, hstuck⟩ := ih rfl
      refine ⟨text ++ front, behind, (piece, text) :: pieces, (List.append_assoc ..).symm,
        .piece (hcut.longest hfault) hmunches, ?_⟩
      rw [List.count_append, ← Nat.add_assoc]
      exact hstuck

/-! ## The first fault -/

/-- Where a scan is stuck behind the longest pieces it fails, and whatever the text goes on with, it
fails there again if it is stuck there again. -/
theorem Token.scan_of_stuck {source : String} {front rest : List Char}
    {pieces : List (Piece × List Char)} {d : Diagnostic} (hsource : source.toList = front ++ rest)
    (hmunches : MunchesBefore rest front pieces) (hstuck : Stuck (1 + front.count '\n') rest d) :
    Token.scan source = .error (.fault d) := by
  have hscans := hmunches.scans_error hstuck.scans
  rw [← hsource] at hscans
  exact Token.scan_of_scans hscans

/-- **The first fault is found, and it stays.** A source that has no tokens is cut into longest
pieces as far as there are any. Behind them stands a character that no piece begins with, which is
reported on its line whatever stands behind it; or a string that is never ended, which is reported
whole, on the line where it begins, and goes on with everything that has no quotation mark. -/
theorem Token.scan_fault_leftmost (source : String) (failure : Failure Diagnostic)
    (hfails : Token.scan source = .error failure) :
    ∃ (front rest : List Char) (pieces : List (Piece × List Char)),
      source.toList = front ++ rest ∧ MunchesBefore rest front pieces ∧ Munches front pieces ∧
      (∀ (piece : Piece) (text : List Char), piece.Spelled text → ¬ text <+: rest) ∧
      let line := 1 + front.count '\n'
      ((∃ c more, rest = c :: more ∧ BeginsNoPiece c ∧
        failure = .fault ⟨line, c.toString, "Unexpected character '" ++ c.toString ++ "'."⟩ ∧
        ∀ further : String, Token.scan (source ++ further) = .error failure) ∨
      (∃ body, rest = '"' :: body ∧ (∀ x ∈ body, x ≠ '"') ∧
        failure = .fault ⟨line, String.ofList rest, "Unterminated string."⟩ ∧
        ∀ further : String, (∀ x ∈ further.toList, x ≠ '"') →
          Token.scan (source ++ further) =
            .error (.fault ⟨line, String.ofList rest ++ further, "Unterminated string."⟩))) := by
  obtain ⟨d, rfl, hscans⟩ := Token.scans_of_error hfails
  obtain ⟨front, rest, pieces, hsource, hmunches, hstuck⟩ := hscans.stuck rfl
  refine ⟨front, rest, pieces, hsource, hmunches, hmunches.munches, hstuck.not_spelled, ?_⟩
  -- what follows leaves the pieces as they are
  obtain ⟨c, more, hrest, hc⟩ := hstuck.head
  have hlonger : ∀ {further : String} {d' : Diagnostic},
      Stuck (1 + front.count '\n') (rest ++ further.toList) d' →
      Token.scan (source ++ further) = .error (.fault d') := by
    intro further d' hstuck'
    rw [hrest] at hmunches hstuck'
    refine Token.scan_of_stuck ?_ (hmunches.append hc further.toList) hstuck'
    rw [String.toList_append, hsource, hrest, List.append_assoc]
  cases hstuck with
  | stray hnone => exact .inl ⟨_, _, rfl, hnone, rfl, fun further => hlonger (.stray hnone)⟩
  | @openString body hbody =>
    refine .inr ⟨body, rfl, hbody, rfl, fun further hfurther => ?_⟩
    have hbody' : ∀ x ∈ body ++ further.toList, x ≠ '"' := by
      intro x hx
      rcases List.mem_append.1 hx with hx | hx
      · exact hbody x hx
      · exact hfurther x hx
    have hlocation : String.ofList ('"' :: (body ++ further.toList)) =
        String.ofList ('"' :: body) ++ further := by
      rw [← List.cons_append, String.ofList_append, String.ofList_toList]
    rw [← hlocation]
    exact hlonger (.openString hbody')

/-- A quotation mark in a comment is no fault, and the one on the next line is. -/
theorem Token.scan_fault_leftmost_comment :
    Token.scan "//\"\n\"é" = .error (.fault ⟨2, "\"é", "Unterminated string."⟩) ∧
      Token.scan ("//\"\n\"é" ++ "\n;") =
        .error (.fault ⟨2, "\"é\n;", "Unterminated string."⟩) := by
  have hcomment : Cut .gap ('/' :: '/' :: ['"']) ['\n', '"', 'é'] := .comment (by simp) (by simp)
  have hblank : Cut .gap ['\n'] ['"', 'é'] := .blank rfl
  have hstuck : Cut .openString ('"' :: ['é']) [] := .openString (by simp)
  have hscans : Scans 1 ('/' :: '/' :: ['"'] ++ (['\n'] ++ ('"' :: ['é'] ++ []))) _ :=
    .piece hcomment rfl (.piece hblank rfl (.fault hstuck rfl))
  have hfails : Token.scan "//\"\n\"é" = .error (.fault ⟨2, "\"é", "Unterminated string."⟩) :=
    Token.scan_of_scans (show Scans 1 "//\"\n\"é".toList _ from hscans)
  refine ⟨hfails, ?_⟩
  obtain ⟨front, rest, -, -, -, -, -, hcases⟩ := Token.scan_fault_leftmost _ _ hfails
  rcases hcases with ⟨c, -, -, -, hstray, -⟩ | ⟨body, -, -, hfault, hfurther⟩
  · -- the location has two characters
    have hlocation : "\"é" = String.singleton c :=
      congrArg Diagnostic.location (Failure.fault.inj hstray)
    have hlength := congrArg String.length hlocation
    rw [String.length_singleton] at hlength
    exact absurd hlength (by decide)
  · obtain ⟨hline, hlocation, -⟩ := Diagnostic.mk.inj (Failure.fault.inj hfault)
    have hwhole := hfurther "\n;" (by simp)
    rw [← hline, ← hlocation] at hwhole
    exact hwhole

end Lox
