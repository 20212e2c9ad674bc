/-
Cursors: places in a source.

A cursor walks over the characters of a source. It counts the bytes it has passed, which is its
offset, and the line it is on; only a line feed ends a line, and the first line is line 1. Cursors
are values: keeping one is how the start of a lexeme is remembered, and the text between two
cursors is the lexeme.

The offset and the line are counters beside the unread rest. That they always fit the text that
was passed, whatever motions led to the place, is what `next` and everything built on it keep.
-/
import Lox.Failure
import Lox.Text.Bytes
import Lox.Text.Quoted

set_option autoImplicit false

namespace Lox

/-- A place in a source: the unread rest, the bytes passed and the line. -/
structure Cursor where
  source : String
  rest : List Char
  offset : Nat
  line : Nat
  deriving Repr

namespace Cursor

/-- The place in front of the first character. -/
def start (source : String) : Cursor :=
  ⟨source, source.toList, 0, 1⟩

/-! ## Looking -/

/-- Nothing is left to read. -/
def atEnd (c : Cursor) : Bool := c.rest.isEmpty

/-- The next character. -/
def peek (c : Cursor) : Option Char := c.rest.head?

/-- The character behind the next one. -/
def peekNext (c : Cursor) : Option Char := c.rest.tail.head?

/-! ## Moving -/

/-- The place behind `ch`, the first character of the rest, with `rest` still unread. -/
def pass (c : Cursor) (ch : Char) (rest : List Char) : Cursor :=
  { c with
    rest := rest
    offset := c.offset + ch.utf8Size
    line := if ch = '\n' then c.line + 1 else c.line }

/-- Reads one character. At the end there is none, and the place stays the same. -/
def next (c : Cursor) : Option Char × Cursor :=
  match c.rest with
  | [] => (none, c)
  | ch :: rest => (some ch, c.pass ch rest)

/-- Passes over that many characters, or over all there are. -/
def skip : Nat → Cursor → Cursor
  | 0, c => c
  | n + 1, c =>
    match c.rest with
    | [] => c
    | ch :: rest => skip n (c.pass ch rest)

/-- Passes over `n` characters and reads the one behind them. -/
def nth (n : Nat) (c : Cursor) : Option Char × Cursor :=
  (skip n c).next

/-- Passes over the next character if it is `expected`, and tells whether it was. -/
def advanceIf (expected : Char) (c : Cursor) : Bool × Cursor :=
  if c.peek = some expected then (true, c.next.2) else (false, c)

/-- Passes over characters as long as they satisfy `p`, the unread rest being `rest`. -/
def eatAlong (p : Char → Bool) (rest : List Char) (c : Cursor) : Cursor :=
  match rest with
  | [] => c
  | ch :: rest => if p ch then eatAlong p rest (c.pass ch rest) else c

/-- Passes over characters as long as they satisfy `p`. -/
def eatWhile (p : Char → Bool) (c : Cursor) : Cursor :=
  eatAlong p c.rest c

/-! ## Two cursors -/

/-- The same source text with the same rest unread. -/
instance : BEq Cursor :=
  ⟨fun a b => a.source == b.source && a.rest == b.rest⟩

/-- The text between two places of one source. -/
def slice {ε : Type} (first last : Cursor) : Attempt ε String :=
  if first.source = last.source ∧ first.offset ≤ last.offset then
    match Text.splitBytes? (last.offset - first.offset) first.rest with
    | some (between, _) => .ok (String.ofList between)
    | none => .error (.breach .slice)
  else .error (.breach .slice)

/-! ## A cursor described -/

/-- Line and offset on one line. -/
def summary (c : Cursor) : String :=
  "Cursor \x7b line: Line(" ++ toString c.line ++ "), offset: " ++ toString c.offset ++ " \x7d"

/-- Line, offset and source, one below the other. -/
def description (c : Cursor) : String :=
  "Cursor \x7b\n    line: Line(\n        " ++ toString c.line ++ ",\n    ),\n    offset: "
    ++ toString c.offset ++ ",\n    source: " ++ Text.quoted c.source ++ ",\n\x7d"

end Cursor

end Lox
