/-
The pieces of the lexical grammar, and what a first character admits.

`Piece.Spelled` is the grammar: which texts are pieces, and of what sort, without a word on where a
piece in a source ends. The scanner decides by the first character; `Opening` names its decisions,
and the one lemma that matters here, `Piece.Spelled.admitted`, says that a text of the grammar is
always of a sort that its first character admits. So the sorts never compete for a text except
where the scanner looks further: at a slash, and at the four symbols an equals sign may follow.
-/
import Lox.Token.Scan

set_option autoImplicit false

namespace Lox

/-! ## The grammar of pieces -/

/-- The text is a piece of this sort: a symbol, a gap between tokens (a blank or a comment), a
string, a number with or without places, or a word. -/
inductive Piece.Spelled : Piece → List Char → Prop
  | symbol (s : Symbol) : Spelled (.symbol s) s.text.toList
  | blank {c : Char} : c ∈ [' ', '\r', '\t', '\x0c', '\n'] → Spelled .gap [c]
  | comment {body : List Char} : (∀ x ∈ body, x ≠ '\n') → Spelled .gap ('/' :: '/' :: body)
  | string {body : List Char} : (∀ x ∈ body, x ≠ '"') → Spelled .string ('"' :: (body ++ ['"']))
  | whole {digits : List Char} : digits ≠ [] → (∀ x ∈ digits, x.isDigit = true) →
      Spelled .number digits
  | decimal {digits places : List Char} : digits ≠ [] → (∀ x ∈ digits, x.isDigit = true) →
      places ≠ [] → (∀ x ∈ places, x.isDigit = true) →
      Spelled .number (digits ++ '.' :: places)
  | word {c : Char} {body : List Char} : c.isAlpha = true ∨ c = '_' →
      (∀ x ∈ body, x.isAlphanum = true ∨ x = '_') → Spelled .word (c :: body)

/-! ## Munching -/

/-- In front of `rest`, the text is the longest prefix that is a piece. -/
structure Piece.Longest (piece : Piece) (text rest : List Char) : Prop where
  spelled : piece.Spelled text
  longest : ∀ (other : Piece) (front : List Char), other.Spelled front → front <+: text ++ rest →
    front.length ≤ text.length

/-- Taking the longest piece off the front again and again leaves these pieces and ends with
nothing left. -/
inductive Munches : List Char → List (Piece × List Char) → Prop
  | done : Munches [] []
  | piece {piece : Piece} {text rest : List Char} {pieces : List (Piece × List Char)} :
      piece.Longest text rest → Munches rest pieces →
      Munches (text ++ rest) ((piece, text) :: pieces)

/-- What a piece means as a token. A word is a keyword only as a whole, and letter for letter. -/
inductive Piece.Denotes : Piece → List Char → Meaning → Prop
  | symbol (s : Symbol) : Denotes (.symbol s) s.text.toList (.symbol s)
  | string (body : List Char) :
      Denotes .string ('"' :: (body ++ ['"'])) (.string (String.ofList body))
  | number (text : List Char) : Denotes .number text (.number (Number.ofDigits text))
  | keyword (k : Keyword) : Denotes .word k.text.toList (.keyword k)
  | identifier {text : List Char} : (∀ k : Keyword, k.text.toList ≠ text) →
      Denotes .word text (.identifier (String.ofList text))

/-- The token of a piece: the piece is its lexeme, and it means what the piece means. -/
def Token.StandsFor (piece : Piece × List Char) (t : Token) : Prop :=
  t.lexeme = String.ofList piece.2 ∧ piece.1.Denotes piece.2 t.meaning

/-- A keyword is found by its spelling. -/
theorem Keyword.text_of_ofText? {word : String} {k : Keyword} (h : ofText? word = some k) :
    k.text = word := by
  simpa using List.find?_some h

/-- Where no keyword is found, none has this spelling. -/
theorem Keyword.ofText?_eq_none {word : String} (h : ofText? word = none) (k : Keyword) :
    k.text ≠ word := by
  have hmem : k ∈ all := by cases k <;> decide
  simpa using List.find?_eq_none.1 h k hmem

/-! ## The classes of characters -/

theorem isBlank_iff {c : Char} : isBlank c = true ↔ c ∈ [' ', '\r', '\t', '\x0c', '\n'] := by
  simp [isBlank, or_assoc]

theorem isLetter_iff {c : Char} : isLetter c = true ↔ c.isAlpha = true ∨ c = '_' := by
  simp [isLetter]

theorem isWordChar_iff {c : Char} :
    isWordChar c = true ↔ c.isAlphanum = true ∨ c = '_' := by
  rw [isWordChar, Bool.or_eq_true, isLetter_iff, Char.isAlphanum, Bool.or_eq_true, or_right_comm]

/-! ## First characters -/

/-- What a scan decides on seeing the first character of a piece. -/
inductive Opening
  | lone (s : Symbol)
  | pair (short long : Symbol)
  | slash
  | blank
  | quote
  | digit
  | letter
  | nothing

namespace Opening

/-- The decision on a character. -/
def of (c : Char) : Opening :=
  match Symbol.ofChar? c, Symbol.pairOfChar? c with
  | some s, _ => lone s
  | none, some (short, long) => pair short long
  | none, none =>
    -- no two of these tests succeed on one character, but the order is the scanner's
    if c = '/' then slash
    else if isBlank c then blank
    else if c = '"' then quote
    else if c.isDigit then digit
    else if isLetter c then letter
    else nothing

/-- A piece of this sort may go on with these characters behind such a first one. -/
def Admits : Opening → Piece → List Char → Prop
  | lone s, piece, more => piece = .symbol s ∧ more = []
  | pair short long, piece, more =>
    (piece = .symbol short ∧ more = []) ∨ (piece = .symbol long ∧ more = ['='])
  | slash, piece, more =>
    (piece = .symbol .slash ∧ more = []) ∨
      (piece = .gap ∧ ∃ body, more = '/' :: body ∧ ∀ x ∈ body, x ≠ '\n')
  | blank, piece, more => piece = .gap ∧ more = []
  | quote, piece, more =>
    piece = .string ∧ ∃ body, more = body ++ ['"'] ∧ ∀ x ∈ body, x ≠ '"'
  | digit, piece, more =>
    piece = .number ∧ ((∀ x ∈ more, x.isDigit = true) ∨
      ∃ digits places, more = digits ++ '.' :: places ∧ (∀ x ∈ digits, x.isDigit = true) ∧
        places ≠ [] ∧ ∀ x ∈ places, x.isDigit = true)
  | letter, piece, more => piece = .word ∧ ∀ x ∈ more, isWordChar x = true
  | nothing, _, _ => False

/-! ### The decision on each sort of character -/

variable {c : Char}

theorem of_lone {s : Symbol} (h : Symbol.ofChar? c = some s) : of c = lone s := by
  rw [of, h]

/-- A character of its own is of no other sort. -/
theorem ofChar?_eq_none (h : Symbol.pairOfChar? c ≠ none ∨ c = '/' ∨ isBlank c = true ∨ c = '"' ∨
    c.isDigit = true ∨ isLetter c = true) : Symbol.ofChar? c = none := by
  cases hlone : Symbol.ofChar? c with
  | none => rfl
  | some s =>
    rw [Symbol.ofChar?.eq_def] at hlone
    split at hlone
    all_goals first | exact absurd h (by decide) | cases hlone

/-- A character that an equals sign may follow is of no later sort. -/
theorem pairOfChar?_eq_none (h : c = '/' ∨ isBlank c = true ∨ c = '"' ∨
    c.isDigit = true ∨ isLetter c = true) : Symbol.pairOfChar? c = none := by
  cases hpair : Symbol.pairOfChar? c with
  | none => rfl
  | some pair =>
    rw [Symbol.pairOfChar?.eq_def] at hpair
    split at hpair
    all_goals first | exact absurd h (by decide) | cases hpair

theorem of_pair {short long : Symbol} (h : Symbol.pairOfChar? c = some (short, long)) :
    of c = pair short long := by
  rw [of, ofChar?_eq_none (.inl (by simp [h])), h]

theorem of_blank (h : isBlank c = true) : of c = blank := by
  have hslash : c ≠ '/' := by
    rintro rfl
    exact absurd h (by decide)
  rw [of, ofChar?_eq_none (.inr (.inr (.inl h))), pairOfChar?_eq_none (.inr (.inl h))]
  simp only
  rw [if_neg hslash, if_pos h]

/-- A digit or a letter is no blank, no slash and no quotation mark. -/
theorem not_mark_of_digit_or_letter (h : c.isDigit = true ∨ isLetter c = true) :
    c ≠ '/' ∧ ¬ isBlank c = true ∧ c ≠ '"' := by
  refine ⟨?_, ?_, ?_⟩
  · rintro rfl
    exact absurd h (by decide)
  · intro hblank
    simp only [isBlank, Bool.or_eq_true, beq_iff_eq] at hblank
    rcases hblank with (((rfl | rfl) | rfl) | rfl) | rfl <;> exact absurd h (by decide)
  · rintro rfl
    exact absurd h (by decide)

theorem of_digit (h : c.isDigit = true) : of c = digit := by
  obtain ⟨hslash, hblank, hquote⟩ := not_mark_of_digit_or_letter (.inl h)
  have hlone := ofChar?_eq_none (.inr (.inr (.inr (.inr (.inl h)))))
  have hpair := pairOfChar?_eq_none (.inr (.inr (.inr (.inl h))))
  rw [of, hlone, hpair]
  simp only
  rw [if_neg hslash, if_neg hblank, if_neg hquote, if_pos h]

/-- No letter is a digit. -/
theorem isDigit_eq_false_of_isLetter (h : isLetter c = true) : c.isDigit = false := by
  cases hdigit : c.isDigit with
  | false => rfl
  | true =>
    -- the codes of the digits are below those of all letters
    have hlow : c.val ≤ '9'.val := of_decide_eq_true (Bool.and_eq_true_iff.1 hdigit).2
    rcases isLetter_iff.1 h with halpha | rfl
    · rcases Bool.or_eq_true_iff.1 halpha with hupper | hlower
      · exact absurd (UInt32.le_trans (of_decide_eq_true hupper).1 hlow) (by decide)
      · have hhigh : 'a'.val ≤ c.val := of_decide_eq_true (Bool.and_eq_true_iff.1 hlower).1
        exact absurd (UInt32.le_trans hhigh hlow) (by decide)
    · exact absurd hlow (by decide)

theorem of_letter (h : isLetter c = true) : of c = letter := by
  obtain ⟨hslash, hblank, hquote⟩ := not_mark_of_digit_or_letter (.inr h)
  have hlone := ofChar?_eq_none (.inr (.inr (.inr (.inr (.inr h)))))
  have hpair := pairOfChar?_eq_none (.inr (.inr (.inr (.inr h))))
  have hdigit : ¬ c.isDigit = true := by simp [isDigit_eq_false_of_isLetter h]
  rw [of, hlone, hpair]
  simp only
  rw [if_neg hslash, if_neg hblank, if_neg hquote, if_neg hdigit, if_pos h]

end Opening

/-! ## The grammar by first characters -/

theorem Symbol.text_of_ofChar? {c : Char} {s : Symbol} (h : ofChar? c = some s) :
    s.text.toList = [c] := by
  rw [ofChar?.eq_def] at h
  split at h <;> cases h <;> decide

theorem Symbol.text_of_pairOfChar? {c : Char} {short long : Symbol}
    (h : pairOfChar? c = some (short, long)) :
    short.text.toList = [c] ∧ long.text.toList = [c, '='] := by
  rw [pairOfChar?.eq_def] at h
  split at h <;> cases h <;> decide

/-- How a symbol is written: as a character of its own, as a character that an equals sign may
follow, as such a character with the sign behind it, or as the slash. -/
theorem Symbol.text_cases (s : Symbol) :
    let c := s.text.toList.headD ' '
    (Symbol.ofChar? c = some s ∧ s.text.toList = [c]) ∨
      ((Symbol.pairOfChar? c).map Prod.fst = some s ∧ s.text.toList = [c]) ∨
      ((Symbol.pairOfChar? c).map Prod.snd = some s ∧ s.text.toList = [c, '=']) ∨
      (s = .slash ∧ s.text.toList = ['/']) := by
  cases s <;> decide

namespace Piece

theorem Spelled.ne_nil {piece : Piece} {text : List Char} (h : piece.Spelled text) :
    text ≠ [] := by
  cases h with
  | symbol s => rcases s.text_cases with ⟨-, h⟩ | ⟨-, h⟩ | ⟨-, h⟩ | ⟨-, h⟩ <;> rw [h] <;> simp
  | whole hne _ => exact hne
  | _ => simp

/-- A text of the grammar is of a sort that its first character admits. -/
theorem Spelled.admitted {piece : Piece} {c : Char} {more : List Char}
    (h : piece.Spelled (c :: more)) : (Opening.of c).Admits piece more := by
  generalize htext : c :: more = text at h
  cases h with
  | symbol s =>
    -- a symbol is the only sort that its first character may leave open
    have hcases := s.text_cases
    rw [← htext] at hcases
    simp only [List.headD_cons, List.cons.injEq, true_and] at hcases
    rcases hcases with ⟨hlone, rfl⟩ | ⟨hpair, rfl⟩ | ⟨hpair, rfl⟩ | ⟨rfl, rfl, rfl⟩
    · rw [Opening.of_lone hlone]
      exact ⟨rfl, rfl⟩
    · obtain ⟨⟨short, long⟩, hboth, rfl⟩ := Option.map_eq_some_iff.1 hpair
      rw [Opening.of_pair hboth]
      exact .inl ⟨rfl, rfl⟩
    · obtain ⟨⟨short, long⟩, hboth, rfl⟩ := Option.map_eq_some_iff.1 hpair
      rw [Opening.of_pair hboth]
      exact .inr ⟨rfl, rfl⟩
    · exact .inl ⟨rfl, rfl⟩
  | blank hmem =>
    obtain ⟨rfl, rfl⟩ := List.cons.inj htext
    rw [Opening.of_blank (isBlank_iff.2 hmem)]
    exact ⟨rfl, rfl⟩
  | comment hbody =>
    obtain ⟨rfl, rfl⟩ := List.cons.inj htext
    exact .inr ⟨rfl, _, rfl, hbody⟩
  | string hbody =>
    obtain ⟨rfl, rfl⟩ := List.cons.inj htext
    exact ⟨rfl, _, rfl, hbody⟩
  | whole hne hall =>
    subst htext
    rw [Opening.of_digit (hall c (List.mem_cons_self ..))]
    exact ⟨rfl, .inl fun x hx => hall x (List.mem_cons_of_mem _ hx)⟩
  | @decimal digits places hne hall hplaces hallPlaces =>
    cases digits with
    | nil => exact absurd rfl hne
    | cons d digits =>
      obtain ⟨rfl, rfl⟩ := List.cons.inj htext
      rw [Opening.of_digit (hall c (List.mem_cons_self ..))]
      exact ⟨rfl, .inr ⟨digits, places, rfl, fun x hx => hall x (List.mem_cons_of_mem _ hx),
        hplaces, hallPlaces⟩⟩
  | word hfirst hbody =>
    obtain ⟨rfl, rfl⟩ := List.cons.inj htext
    rw [Opening.of_letter (isLetter_iff.2 hfirst)]
    exact ⟨rfl, fun x hx => isWordChar_iff.2 (hbody x hx)⟩

end Piece

end Lox
