/-
Token listings.

A listing has a line for every token: its line number, right-aligned to four places, its kind and
its lexeme in quotes. Quoting keeps a lexeme with line feeds in it on its one line.
-/
import Lox.Text.Quoted
import Lox.Token

set_option autoImplicit false

namespace Lox

/-- Blanks in front, up to a width. -/
def alignRight (width : Nat) (text : String) : String :=
  String.ofList (List.replicate (width - text.length) ' ') ++ text

/-- The line of a token in a listing, without its line feed. -/
def Token.listing (t : Token) : String :=
  alignRight 4 (toString t.line) ++ " " ++ t.kind.name ++ " " ++ Text.quoted t.lexeme

/-- The listing of some tokens. -/
def Token.listingAll (tokens : List Token) : String :=
  String.join (tokens.map fun t => t.listing ++ "\n")

end Lox
