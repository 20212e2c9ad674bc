/-
A scan as a run of cuts.

`Scans line text result` says that a scan of `text`, whose first character is on `line`, comes to
`result`: text is cut off piece by piece, each piece leaves its token or nothing, and the first
faulty piece ends the run with a diagnostic. The run is over characters and lines only, so what is
proved about it by induction does not mention cursors; that `Token.scan` follows the run, and so
never breaks a contract, is the result of this file.
-/
import Lox.Proofs.Attempts
import Lox.Proofs.Lexing.Cut

set_option autoImplicit false

namespace Lox

/-! ## What a piece leaves -/

namespace Piece

/-- The fault of a piece that is none, with the lines of its two ends. -/
def fault? (first last : Nat) : Piece → List Char → Option Diagnostic
  | stray c, _ => some ⟨last, c.toString, (LexicalFault.unexpectedCharacter c).message⟩
  | openString, text =>
    some ⟨first, String.ofList text, LexicalFault.unterminatedString.message⟩
  | _, _ => none

/-- The meaning of a piece that is a token. -/
def meaning? : Piece → List Char → Option Meaning
  | symbol s, _ => some (.symbol s)
  | string, text => some (.string (String.ofList text.tail.dropLast))
  | number, text => some (.number (Number.ofDigits text))
  | word, text => some (wordMeaning (String.ofList text))
  | _, _ => none

/-- The tokens of a piece that ends on this line, at most one. -/
def tokens (last : Nat) (piece : Piece) (text : List Char) : List Token :=
  ((piece.meaning? text).map fun m => ⟨m, String.ofList text, last⟩).toList

/-- Without its quotation marks, a string is what stands between them. -/
theorem unquote_quoted {ε : Type} (body : List Char) :
    (unquote (String.ofList ('"' :: (body ++ ['"']))) : Attempt ε String) =
      .ok (String.ofList body) := by
  have hsize : '"'.utf8Size = 1 := by decide
  have hcut : Text.splitBytes? 1 ('"' :: (body ++ ['"'])) = some (['"'], body ++ ['"']) := by
    have hfront := Text.splitBytes?_append ['"'] (body ++ ['"'])
    rwa [Text.byteCount_cons, hsize] at hfront
  -- in bytes the slice goes from 1 to one less than the whole, and both marks are one byte long
  have hstop : Text.byteCount ('"' :: (body ++ ['"'])) - 1 = Text.byteCount body + 1 := by
    rw [Text.byteCount_cons, Text.byteCount_append, Text.byteCount_cons, hsize, Text.byteCount_nil]
    omega
  rw [unquote, String.toList_ofList]
  simp only [Text.slice?, hstop, hcut]
  rw [if_pos (Nat.le_add_left _ _), Nat.add_sub_cancel, Text.splitBytes?_append]
  rfl

/-- What is made of a lexeme is made of the text that was passed. -/
theorem slice_bind {α : Type} {first last : Cursor} {text : List Char}
    (hpasses : first.Passes text last) (k : String → Attempt Diagnostic α) :
    (first.slice last >>= k) = k (String.ofList text) := by
  rw [hpasses.slice]
  rfl

/-- The token of a piece between two places, or its fault, comes from the text alone. -/
theorem token_eq {first last : Cursor} {piece : Piece} {text : List Char}
    (hpasses : first.Passes text last) (hcut : Cut piece text last.rest) :
    piece.token first last =
      match piece.fault? first.line last.line text with
      | some d => .error (.fault d)
      | none => .ok ((piece.meaning? text).map fun m => ⟨m, String.ofList text, last.line⟩) := by
  generalize last.rest = rest at hcut
  cases hcut with
  | comment _ _ => rfl
  | blank _ => rfl
  | stray _ _ _ _ _ _ _ => rfl
  | string _ =>
    simp only [token, slice_bind hpasses, unquote_quoted, meaning?, List.tail_cons,
      List.dropLast_concat]
    rfl
  | _ =>
    simp only [token, slice_bind hpasses, String.toList_ofList, meaning?, Option.map_some]
    rfl

end Piece

/-! ## Runs -/

/-- A scan of the text, from this line on, comes to the result. -/
inductive Scans : Nat → List Char → Except Diagnostic (List Token) → Prop
  | done (line : Nat) : Scans line [] (.ok [.endMarker line])
  -- a piece ends on the line where it begins and as many lines further as it has line feeds
  | fault {line : Nat} {piece : Piece} {text rest : List Char} {d : Diagnostic} :
      Cut piece text rest → piece.fault? line (line + text.count '\n') text = some d →
      Scans line (text ++ rest) (.error d)
  | piece {line : Nat} {piece : Piece} {text rest : List Char}
      {result : Except Diagnostic (List Token)} :
      Cut piece text rest → piece.fault? line (line + text.count '\n') text = none →
      Scans (line + text.count '\n') rest result →
      Scans line (text ++ rest)
        (result.map (piece.tokens (line + text.count '\n') text ++ ·))

/-- No piece means the end. -/
theorem Piece.kind_ne_ending {piece : Piece} {text : List Char} {m : Meaning}
    (h : piece.meaning? text = some m) : m.kind ≠ .ending := by
  cases piece with
  | gap => cases h
  | openString => cases h
  | stray c => cases h
  | word =>
    obtain rfl : wordMeaning (String.ofList text) = m := Option.some.inj h
    rw [wordMeaning]
    cases Keyword.ofText? (String.ofList text) <;> simp [Meaning.kind]
  | _ =>
    cases h
    simp [Meaning.kind]

/-- No piece leaves an end marker. -/
theorem Piece.tokens_open {last : Nat} {piece : Piece} {text : List Char} :
    ∀ t ∈ piece.tokens last text, t.isEnding = false := by
  intro t ht
  rw [tokens, Option.mem_toList, Option.map_eq_some_iff] at ht
  obtain ⟨m, hm, rfl⟩ := ht
  rw [Token.isEnding, decide_eq_false_iff_not]
  exact kind_ne_ending hm

/-- The tokens of a run end with an end marker, and it is the only one. -/
theorem Scans.terminated {line : Nat} {source : List Char}
    {result : Except Diagnostic (List Token)} (hscans : Scans line source result) :
    ∀ {tokens : List Token}, result = .ok tokens →
      ∃ body stop, tokens = body ++ [.endMarker stop] ∧ ∀ t ∈ body, t.isEnding = false := by
  induction hscans with
  | done line =>
    intro tokens hresult
    cases hresult
    exact ⟨[], line, rfl, by simp⟩
  | fault _ _ =>
    intro tokens hresult
    cases hresult
  | @piece line piece text rest later _ _ _ ih =>
    intro tokens hresult
    cases later with
    | error d => cases hresult
    | ok found =>
      cases hresult
      obtain ⟨body, stop, rfl, hbody⟩ := ih rfl
      refine ⟨piece.tokens (line + text.count '\n') text ++ body, stop, by simp, ?_⟩
      intro t ht
      rcases List.mem_append.1 ht with ht | ht
      · exact Piece.tokens_open t ht
      · exact hbody t ht

/-- The scan from a place follows the run over what is unread there. -/
theorem Token.scanFrom_scans (place : Cursor) :
    ∃ result, Scans place.line place.rest result ∧
      Token.scanFrom place = result.mapError .fault := by
  induction hlength : place.rest.length using Nat.strongRecOn generalizing place with
  | ind n ih =>
    rw [scanFrom]
    split
    · rename_i after hnext
      rw [Cursor.next_none hnext]
      exact ⟨_, .done place.line, rfl⟩
    · rename_i c after hnext
      obtain ⟨more, hpasses, hcut⟩ := Piece.read_behind hnext
      have htoken := Piece.token_eq hpasses hcut
      rw [hpasses.line] at htoken
      rw [hpasses.rest]
      cases hfault : (Piece.read c after).1.fault? place.line
          (place.line + (c :: more).count '\n') (c :: more) with
      | some d =>
        refine ⟨_, .fault hcut hfault, ?_⟩
        simp only [hfault] at htoken
        simp only [htoken]
        rfl
      | none =>
        -- the piece has a first character, so less is left behind it
        have hshorter : (Piece.read c after).2.rest.length < n := by
          rw [← hlength, hpasses.rest, List.length_append, List.length_cons]
          omega
        obtain ⟨result, hscans, hresult⟩ := ih _ hshorter (Piece.read c after).2 rfl
        rw [hpasses.line] at hscans
        refine ⟨_, .piece hcut hfault hscans, ?_⟩
        simp only [hfault] at htoken
        simp only [htoken, hresult]
        cases result <;> rfl

/-- **A scan is a run.** Every source has a run from line 1, and its scan comes to what the run
comes to. -/
theorem Token.scan_scans (source : String) :
    ∃ result, Scans 1 source.toList result ∧ Token.scan source = result.mapError .fault :=
  Token.scanFrom_scans (Cursor.start source)

/-- A scan that has tokens is a run to them. -/
theorem Token.scans_of_ok {source : String} {tokens : List Token}
    (hscan : Token.scan source = .ok tokens) : Scans 1 source.toList (.ok tokens) := by
  obtain ⟨result, hscans, hresult⟩ := Token.scan_scans source
  rw [hscan, eq_comm, Attempt.mapError_eq_ok_iff] at hresult
  rwa [hresult] at hscans

/-- A scan that fails is a run to a diagnostic. -/
theorem Token.scans_of_error {source : String} {failure : Failure Diagnostic}
    (hscan : Token.scan source = .error failure) :
    ∃ d, failure = .fault d ∧ Scans 1 source.toList (.error d) := by
  obtain ⟨result, hscans, hresult⟩ := Token.scan_scans source
  rw [hscan] at hresult
  cases result with
  | ok tokens => cases hresult
  | error d => exact ⟨d, Except.error.inj hresult, hscans⟩

end Lox
