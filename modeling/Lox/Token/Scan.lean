/-
From a source to its tokens.

A source is cut into pieces, each beginning where the one before it ended. At every place the next
character decides what kind of piece begins there, and one or two characters of lookahead decide
where it ends: a piece is always as long as it can be. Pieces between the tokens (blanks, line
feeds, comments) leave nothing behind; every other piece becomes a token. The first character
that begins no piece ends the scan, and so does a string that is never closed; no tokens are given
then.

`Piece.read` only measures: it says which piece begins at a place and where that piece ends.
`Piece.token` then takes the text between the two places and makes the token.
-/
import Lox.Cursor
import Lox.Diagnostic
import Lox.Number.Positional
import Lox.Token

set_option autoImplicit false

namespace Lox

/-! ## Characters -/

/-- A letter that may begin a word: of the Latin alphabet without accents, or an underscore. -/
def isLetter (c : Char) : Bool := c.isAlpha || c == '_'

/-- A character that may go on with a word. -/
def isWordChar (c : Char) : Bool := isLetter c || c.isDigit

/-- A character that separates tokens. A line feed does nothing more; the cursor counts lines. -/
def isBlank (c : Char) : Bool :=
  c == ' ' || c == '\r' || c == '\t' || c == '\x0c' || c == '\n'

/-- The symbols whose first character tells them apart from all others. -/
def Symbol.ofChar? : Char → Option Symbol
  | '(' => some leftParen
  | ')' => some rightParen
  | '\x7b' => some leftBrace
  | '\x7d' => some rightBrace
  | ',' => some comma
  | '.' => some dot
  | '-' => some minus
  | '+' => some plus
  | ';' => some semicolon
  | '*' => some star
  | _ => none

/-- The symbols that an equals sign behind them turns into another one, with that other one. -/
def Symbol.pairOfChar? : Char → Option (Symbol × Symbol)
  | '!' => some (bang, bangEqual)
  | '=' => some (equal, equalEqual)
  | '<' => some (less, lessEqual)
  | '>' => some (greater, greaterEqual)
  | _ => none

/-! ## Faults -/

/-- Why a scan ends early. -/
inductive LexicalFault
  | unexpectedCharacter (c : Char)
  | unterminatedString
  deriving DecidableEq, Repr

/-- The wording of a fault. -/
def LexicalFault.message : LexicalFault → String
  | unexpectedCharacter c => "Unexpected character '" ++ c.toString ++ "'."
  | unterminatedString => "Unterminated string."

/-! ## Pieces -/

/-- What a source is cut into. -/
inductive Piece
  | symbol (s : Symbol)
  /-- A blank or a comment. -/
  | gap
  /-- A string with both its quotation marks. -/
  | string
  | number
  /-- A keyword or an identifier. -/
  | word
  /-- A quotation mark with no other behind it. -/
  | openString
  /-- A character that no piece begins with. -/
  | stray (c : Char)
  deriving DecidableEq, Repr

namespace Piece

/-- The end of a number whose first digit was passed. A point belongs to it only if a digit
follows the point. -/
def numberEnd (c : Cursor) : Cursor :=
  let whole := c.eatWhile Char.isDigit
  if whole.peek = some '.' ∧ whole.peekNext.any Char.isDigit then
    whole.next.2.eatWhile Char.isDigit
  else whole

/-- The piece that begins with the character `c`, and the place where it ends. The cursor stands
behind that character. -/
def read (c : Char) (after : Cursor) : Piece × Cursor :=
  match Symbol.ofChar? c, Symbol.pairOfChar? c with
  | some s, _ => (.symbol s, after)
  | none, some (short, long) =>
    match after.advanceIf '=' with
    | (true, stop) => (.symbol long, stop)
    | (false, stop) => (.symbol short, stop)
  | none, none =>
    if c = '/' then
      match after.advanceIf '/' with
      | (true, comment) => (.gap, comment.eatWhile (· != '\n'))
      | (false, stop) => (.symbol .slash, stop)
    else if isBlank c then (.gap, after)
    else if c = '"' then
      match (after.eatWhile (· != '"')).advanceIf '"' with
      | (true, stop) => (.string, stop)
      | (false, stop) => (.openString, stop)
    else if c.isDigit then (.number, numberEnd after)
    else if isLetter c then (.word, after.eatWhile isWordChar)
    else (.stray c, after)

/-- The text of a string piece without its quotation marks. -/
def unquote {ε : Type} (lexeme : String) : Attempt ε String :=
  let chars := lexeme.toList
  match Text.slice? chars 1 (Text.byteCount chars - 1) with
  | some text => .ok (String.ofList text)
  | none => .error (.breach .slice)

/-- What a word stands for. -/
def wordMeaning (lexeme : String) : Meaning :=
  match Keyword.ofText? lexeme with
  | some k => .keyword k
  | none => .identifier lexeme

/-- The token that a piece between two places makes, none for a gap. A token is on the line where
it ends; a string that is never closed is reported on the line where it begins. -/
def token (piece : Piece) (first last : Cursor) : Attempt Diagnostic (Option Token) := do
  match piece with
  | .gap => return none
  | .stray c =>
    throw (.fault ⟨last.line, c.toString, (LexicalFault.unexpectedCharacter c).message⟩)
  | .openString =>
    let lexeme ← first.slice last
    throw (.fault ⟨first.line, lexeme, LexicalFault.unterminatedString.message⟩)
  | .symbol s =>
    let lexeme ← first.slice last
    return some ⟨.symbol s, lexeme, last.line⟩
  | .string =>
    let lexeme ← first.slice last
    let text ← unquote lexeme
    return some ⟨.string text, lexeme, last.line⟩
  | .number =>
    let lexeme ← first.slice last
    return some ⟨.number (Number.ofDigits lexeme.toList), lexeme, last.line⟩
  | .word =>
    let lexeme ← first.slice last
    return some ⟨wordMeaning lexeme, lexeme, last.line⟩

end Piece

/-! ## A motion never goes back -/

namespace Cursor

theorem next_rest_le (c : Cursor) : c.next.2.rest.length ≤ c.rest.length := by
  unfold next
  split <;> simp_all [pass]

/-- Reading a character uses it up. -/
theorem next_rest_lt {c after : Cursor} {ch : Char} (reads : c.next = (some ch, after)) :
    after.rest.length < c.rest.length := by
  unfold next at reads
  split at reads
  · simp at reads
  · rename_i rest hrest
    obtain ⟨rfl, rfl⟩ : _ ∧ _ := by simpa using reads
    simp [pass, hrest]

theorem advanceIf_rest_le (expected : Char) (c : Cursor) :
    (c.advanceIf expected).2.rest.length ≤ c.rest.length := by
  unfold advanceIf
  split
  · exact next_rest_le c
  · exact Nat.le_refl _

theorem eatAlong_rest_le (p : Char → Bool) (rest : List Char) (c : Cursor) (h : c.rest = rest) :
    (eatAlong p rest c).rest.length ≤ c.rest.length := by
  induction rest generalizing c with
  | nil => exact Nat.le_refl _
  | cons ch rest ih =>
    unfold eatAlong
    split
    · exact Nat.le_trans (ih (c.pass ch rest) rfl) (by simp [h, pass])
    · exact Nat.le_refl _

theorem eatWhile_rest_le (p : Char → Bool) (c : Cursor) :
    (c.eatWhile p).rest.length ≤ c.rest.length :=
  eatAlong_rest_le p c.rest c rfl

end Cursor

theorem Piece.numberEnd_rest_le (c : Cursor) : (numberEnd c).rest.length ≤ c.rest.length := by
  unfold numberEnd
  have whole := c.eatWhile_rest_le Char.isDigit
  simp only
  split
  · refine Nat.le_trans (Cursor.eatWhile_rest_le _ _) (Nat.le_trans (Cursor.next_rest_le _) whole)
  · exact whole

/-- A piece ends at or behind the place where its first character ended. -/
theorem Piece.read_rest_le (c : Char) (after : Cursor) :
    (read c after).2.rest.length ≤ after.rest.length := by
  have equals := after.advanceIf_rest_le '='
  have slash := after.advanceIf_rest_le '/'
  have quote := (after.eatWhile (· != '"')).advanceIf_rest_le '"'
  have text := after.eatWhile_rest_le (· != '"')
  unfold read
  split
  · exact Nat.le_refl _
  · split <;> simp_all
  · repeat' split
    all_goals simp_all
    · exact Nat.le_trans (Cursor.eatWhile_rest_le _ _) slash
    · omega
    · omega
    · exact numberEnd_rest_le after
    · exact Cursor.eatWhile_rest_le _ _

/-! ## The scan -/

namespace Token

/-- The tokens from a place to the end of its source, and the end marker. -/
def scanFrom (place : Cursor) : Attempt Diagnostic (List Token) :=
  match _ : place.next with
  | (none, _) => return [endMarker place.line]
  | (some c, after) => do
    let piece := (Piece.read c after).1
    let stop := (Piece.read c after).2
    let found ← piece.token place stop
    let tokens ← scanFrom stop
    return found.toList ++ tokens
termination_by place.rest.length
decreasing_by
  rename_i reads
  exact Nat.lt_of_le_of_lt (Piece.read_rest_le c after) (Cursor.next_rest_lt reads)

/-- The tokens of a source, the end marker last; or what is wrong with the first piece of it that
is none. -/
def scan (source : String) : Attempt Diagnostic (List Token) :=
  scanFrom (Cursor.start source)

end Token

end Lox
