/-
A listing of tokens can be read back.

A line of a listing has four fields: blanks, a line number, the name of a kind and a lexeme in quotes.
The number is as long as it is, but no digit is a blank, no name has a blank in it, and a quotation can
be read back (`Text.quoted_injective`); so the fields can be told apart from the left
(`Token.listing_injective`). There is no line feed in any of them. The bytes of a listing are therefore
cut into its lines in one way, a line for every token.

A line does not show what its token means. For tokens of a source it does not have to, as kind and
lexeme determine the meaning.
-/
import Lox.Proofs.Command.Scripts
import Lox.Proofs.Lexing.Meanings
import Lox.Proofs.Text.Quoted

set_option autoImplicit false

namespace Lox

/-! ## Fields -/

namespace Kind

/-- Every kind is listed. -/
theorem mem_all (k : Kind) : k ∈ all := by
  cases k with
  | symbol s => cases s <;> decide
  | keyword k => cases k <;> decide
  | _ => decide

/-- Kinds are told apart by their names. -/
theorem name_injective {k other : Kind} (h : k.name = other.name) : k = other := by
  have hall : ∀ k ∈ all, ∀ other ∈ all, k.name = other.name → k = other := by decide
  exact hall k k.mem_all other other.mem_all h

/-- A name is letters only. -/
theorem isAlpha_of_mem_name (k : Kind) : ∀ c ∈ k.name.toList, c.isAlpha = true := by
  have hall : ∀ k ∈ all, k.name.toList.all Char.isAlpha = true := by decide
  exact List.all_eq_true.1 (hall k k.mem_all)

end Kind

namespace Token

variable {t u : Token}

/-- The fields of a line. -/
theorem listing_toList (t : Token) : ∃ blanks : Nat, t.listing.toList =
    List.replicate blanks ' ' ++ (Nat.toDigits 10 t.line ++
      ' ' :: (t.kind.name.toList ++ ' ' :: (Text.quoted t.lexeme).toList)) := by
  refine ⟨4 - (toString t.line).length, ?_⟩
  simp [listing, alignRight]

/-- **A line of a listing can be read back.** Its fields are separated by blanks, and no field but the
last one has a blank in it. -/
theorem listing_injective (h : t.listing = u.listing) :
    t.line = u.line ∧ t.kind = u.kind ∧ t.lexeme = u.lexeme := by
  obtain ⟨blanks, ht⟩ := t.listing_toList
  obtain ⟨blanks', hu⟩ := u.listing_toList
  rw [h, hu] at ht
  have hdigit : ∀ {n : Nat}, ∀ c ∈ Nat.toDigits 10 n, c.isDigit = true :=
    fun c hc => Nat.isDigit_of_mem_toDigits (by decide) (by decide) hc
  have hnumber : ∀ {n : Nat} {rest : List Char},
      ∀ c ∈ (Nat.toDigits 10 n ++ rest).head?, ¬ c = ' ' := by
    rintro n rest c hc rfl
    rw [List.head?_append_of_ne_nil _ Nat.toDigits_ne_nil] at hc
    exact absurd (hdigit _ (List.mem_of_mem_head? hc)) (by decide)
  have hblank : ∀ {p : Char → Prop} {rest : List Char}, ¬ p ' ' →
      ∀ c ∈ (' ' :: rest).head?, ¬ p c := by
    rintro p rest hnot _ ⟨⟩
    exact hnot
  have hname : ∀ {k : Kind}, ∀ c ∈ k.name.toList, c.isAlpha = true := Kind.isAlpha_of_mem_name _
  obtain ⟨-, hfields⟩ := run_eq (fun c hc => (List.mem_replicate.1 hc).2)
    (fun c hc => (List.mem_replicate.1 hc).2) hnumber hnumber ht
  obtain ⟨hline, hbehind⟩ :=
    run_eq hdigit hdigit (hblank (by decide)) (hblank (by decide)) hfields
  obtain ⟨hkind, hquoted⟩ :=
    run_eq hname hname (hblank (by decide)) (hblank (by decide)) (List.cons.inj hbehind).2
  refine ⟨?_, Kind.name_injective (String.toList_inj.1 hkind.symm), ?_⟩
  · have hvalue := congrArg (fun digits => Nat.ofDigitChars 10 digits 0) hline
    simp only [Nat.ofDigitChars_ten_toDigits] at hvalue
    exact hvalue.symm
  · exact (Text.quoted_injective (String.toList_inj.1 (List.cons.inj hquoted).2)).symm

/-- No line of a listing is more than one line. -/
theorem lineFeed_not_mem_listing (t : Token) : '\n' ∉ t.listing.toList := by
  obtain ⟨blanks, ht⟩ := t.listing_toList
  rw [ht]
  intro hmem
  rcases List.mem_append.1 hmem with hmem | hmem
  · cases (List.mem_replicate.1 hmem).2
  rcases List.mem_append.1 hmem with hmem | hmem
  · exact absurd (Nat.isDigit_of_mem_toDigits (by decide) (by decide) hmem) (by decide)
  rcases List.mem_cons.1 hmem with hblank | hmem
  · cases hblank
  rcases List.mem_append.1 hmem with hmem | hmem
  · exact absurd (t.kind.isAlpha_of_mem_name _ hmem) (by decide)
  rcases List.mem_cons.1 hmem with hblank | hmem
  · cases hblank
  · exact Text.lineFeed_not_mem_quoted _ hmem

/-! ## Tokens of sources -/

section Scans

variable {source other : String} {tokens others : List Token}
  (hscan : Token.scan source = .ok tokens) (hscan' : Token.scan other = .ok others)
include hscan hscan'

/-- Tokens of sources that are listed alike are the same. -/
theorem eq_of_listing_eq (ht : t ∈ tokens) (hu : u ∈ others) (h : t.listing = u.listing) :
    t = u := by
  obtain ⟨hline, hkind, hlexeme⟩ := listing_injective h
  have hmeaning : t.meaning = u.meaning := by
    by_cases hending : t.isEnding = true
    · -- an end marker means nothing but the end
      have hending' : u.kind = .ending := hkind.symm.trans (of_decide_eq_true hending)
      have hof : ∀ v : Token, v.kind = .ending → v.meaning = .ending := by
        intro v hv
        rw [kind] at hv
        cases hm : v.meaning with
        | ending => rfl
        | _ => rw [hm] at hv; cases hv
      rw [hof t (of_decide_eq_true hending), hof u hending']
    · have hopen : t.isEnding = false := Bool.eq_false_iff.2 hending
      have hopen' : u.isEnding = false := by
        rw [isEnding, ← hkind]
        exact hopen
      exact Scanned.meaning_eq ⟨source, tokens, hscan, ht, hopen⟩
        ⟨other, others, hscan', hu, hopen'⟩ hkind hlexeme
  cases t
  cases u
  simp only at hline hlexeme hmeaning
  rw [hline, hlexeme, hmeaning]

end Scans

/-- The bytes of a listing are cut into its lines. -/
theorem splitLines_listing (tokens : List Token) :
    Text.splitLines (tokens.flatMap fun t => Text.utf8 (t.listing ++ "\n")) =
      tokens.map fun t => Text.utf8 t.listing ++ [10] := by
  have hfeed : Text.utf8 "\n" = [10] := by decide
  induction tokens with
  | nil => rfl
  | cons t tokens ih =>
    have hline : 10 ∉ Text.utf8 t.listing := Text.lineFeed_not_mem_utf8 t.lineFeed_not_mem_listing
    rw [List.flatMap_cons, Text.utf8_append, hfeed, List.append_assoc, List.singleton_append,
      Text.splitLines_append hline, ih, List.map_cons]

/-- Listings that are the same line by line are of the same tokens, if different tokens of the one and
the other have different lines. -/
theorem eq_of_map_listing_eq {tokens others : List Token}
    (hsame : tokens.map (fun t => Text.utf8 t.listing ++ [10]) =
      others.map fun u => Text.utf8 u.listing ++ [10])
    (heq : ∀ t ∈ tokens, ∀ u ∈ others, t.listing = u.listing → t = u) : tokens = others := by
  induction tokens generalizing others with
  | nil => exact (List.map_eq_nil_iff.1 hsame.symm).symm
  | cons t tokens ih =>
    cases others with
    | nil => cases hsame
    | cons u others =>
      rw [List.map_cons, List.map_cons, List.cons.injEq] at hsame
      have hlisting := Text.utf8_injective (List.append_cancel_right hsame.1)
      rw [heq t (List.mem_cons_self ..) u (List.mem_cons_self ..) hlisting,
        ih hsame.2 fun t ht u hu => heq t (List.mem_cons_of_mem _ ht) u (List.mem_cons_of_mem _ hu)]

end Token

/-! ## The view of the tokens -/

/-- **The view of the tokens is faithful.** Two sources of which it shows the same have the same tokens,
with the same meanings, lexemes and lines. What is shown is a line for every token, with a line feed at
its end and nowhere else. -/
theorem tokens_view_faithful {sink : Sink} (hroom : sink.room = none) {source other : String}
    {tokens others : List Token} (hscan : Token.scan source = .ok tokens)
    (hscan' : Token.scan other = .ok others) :
    let shown := fun source => (processScript sink (some .tokens) source).stdout
    (shown source = shown other → tokens = others) ∧
      Text.splitLines (shown source) = (tokens.map fun t => Text.utf8 t.listing ++ [10]) ∧
      ∀ t ∈ tokens, 10 ∉ Text.utf8 t.listing := by
  intro shown
  have hlines : ∀ {source : String} {tokens : List Token}, Token.scan source = .ok tokens →
      Text.splitLines (shown source) = tokens.map fun t => Text.utf8 t.listing ++ [10] := by
    intro source tokens hscan
    simp only [shown, processScript_tokens_of_ok hroom hscan]
    exact Token.splitLines_listing tokens
  refine ⟨fun hsame => ?_, hlines hscan, fun t _ => ?_⟩
  · have hmap := hlines hscan
    rw [hsame, hlines hscan'] at hmap
    exact Token.eq_of_map_listing_eq hmap.symm fun t ht u hu =>
      Token.eq_of_listing_eq hscan hscan' ht hu
  · exact Text.lineFeed_not_mem_utf8 t.lineFeed_not_mem_listing

/-- A string with a line feed in it, and on the same line a string with a backslash and a letter, which
is how the line feed of the first one is quoted. -/
theorem tokens_view_faithful_escape :
    let shown := fun source => (processScript .endless (some .tokens) source).stdout
    let feed : Token := ⟨.string "\n", "\"\n\"", 2⟩
    let letter : Token := ⟨.string "\\n", "\"\\n\"", 2⟩
    Token.scan "\"\n\"" = .ok [feed, .endMarker 2] ∧
      Token.scan "\n\"\\n\"" = .ok [letter, .endMarker 2] ∧
      shown "\"\n\"" ≠ shown "\n\"\\n\"" ∧ (Text.splitLines (shown "\"\n\"")).length = 2 := by
  intro shown feed letter
  have hfeed : Cut .string ('"' :: (['\n'] ++ ['"'])) [] := .string (by simp)
  have hletter : Cut .string ('"' :: (['\\', 'n'] ++ ['"'])) [] := .string (by simp)
  have hgap : Cut .gap ['\n'] ('"' :: (['\\', 'n'] ++ ['"'])) := .blank rfl
  have hscans : Scans 1 ('"' :: (['\n'] ++ ['"']) ++ []) _ := .piece hfeed rfl (.done _)
  have hscans' : Scans 1 (['\n'] ++ ('"' :: (['\\', 'n'] ++ ['"']) ++ [])) _ :=
    .piece hgap rfl (.piece hletter rfl (.done _))
  have hscan : Token.scan "\"\n\"" = .ok [feed, .endMarker 2] :=
    Token.scan_of_scans (show Scans 1 "\"\n\"".toList _ from hscans)
  have hscan' : Token.scan "\n\"\\n\"" = .ok [letter, .endMarker 2] :=
    Token.scan_of_scans (show Scans 1 "\n\"\\n\"".toList _ from hscans')
  have hroom : Sink.endless.room = none := rfl
  obtain ⟨hsame, hlines, -⟩ := tokens_view_faithful hroom hscan hscan'
  refine ⟨hscan, hscan', fun h => ?_, ?_⟩
  · have hlexeme := congrArg Token.lexeme (List.cons.inj (hsame h)).1
    exact absurd hlexeme (by decide)
  · exact congrArg List.length hlines

end Lox
