/-
Tokens: the words of the language.

A token is a piece of a source with what it stands for, the piece itself (its lexeme) and the line
on which the piece ends. There are symbols and keywords, each with one fixed spelling; names,
strings and numbers, which carry a payload; and the marker that ends a token sequence, whose
lexeme is empty.

The parser looks at nothing but a token's kind: what it stands for without the payload.
-/

set_option autoImplicit false

namespace Lox

/-! ## Symbols -/

/-- Punctuation and operators. -/
inductive Symbol
  | leftParen | rightParen | leftBrace | rightBrace | comma | dot | minus | plus | semicolon
  | slash | star | bang | bangEqual | equal | equalEqual | greater | greaterEqual | less
  | lessEqual
  deriving DecidableEq, Repr

namespace Symbol

/-- The symbols, each once. -/
def all : List Symbol :=
  [leftParen, rightParen, leftBrace, rightBrace, comma, dot, minus, plus, semicolon, slash, star,
   bang, bangEqual, equal, equalEqual, greater, greaterEqual, less, lessEqual]

/-- The spelling. -/
def text : Symbol → String
  | leftParen => "("
  | rightParen => ")"
  | leftBrace => "\x7b"
  | rightBrace => "\x7d"
  | comma => ","
  | dot => "."
  | minus => "-"
  | plus => "+"
  | semicolon => ";"
  | slash => "/"
  | star => "*"
  | bang => "!"
  | bangEqual => "!="
  | equal => "="
  | equalEqual => "=="
  | greater => ">"
  | greaterEqual => ">="
  | less => "<"
  | lessEqual => "<="

/-- The name in a token listing. -/
def name : Symbol → String
  | leftParen => "LeftParen"
  | rightParen => "RightParen"
  | leftBrace => "LeftBrace"
  | rightBrace => "RightBrace"
  | comma => "Comma"
  | dot => "Dot"
  | minus => "Minus"
  | plus => "Plus"
  | semicolon => "Semicolon"
  | slash => "Slash"
  | star => "Star"
  | bang => "Bang"
  | bangEqual => "BangEqual"
  | equal => "Equal"
  | equalEqual => "EqualEqual"
  | greater => "Greater"
  | greaterEqual => "GreaterEqual"
  | less => "Less"
  | lessEqual => "LessEqual"

end Symbol

/-! ## Keywords -/

/-- The reserved words. -/
inductive Keyword
  | and_ | class_ | else_ | false_ | fun_ | for_ | if_ | nil_ | or_ | print_ | return_ | super_
  | this_ | true_ | var_ | while_
  deriving DecidableEq, Repr

namespace Keyword

/-- The reserved words, each once. -/
def all : List Keyword :=
  [and_, class_, else_, false_, fun_, for_, if_, nil_, or_, print_, return_, super_, this_, true_,
   var_, while_]

/-- The spelling. -/
def text : Keyword → String
  | and_ => "and"
  | class_ => "class"
  | else_ => "else"
  | false_ => "false"
  | fun_ => "fun"
  | for_ => "for"
  | if_ => "if"
  | nil_ => "nil"
  | or_ => "or"
  | print_ => "print"
  | return_ => "return"
  | super_ => "super"
  | this_ => "this"
  | true_ => "true"
  | var_ => "var"
  | while_ => "while"

/-- The name in a token listing. -/
def name : Keyword → String
  | and_ => "And"
  | class_ => "Class"
  | else_ => "Else"
  | false_ => "False"
  | fun_ => "Fun"
  | for_ => "For"
  | if_ => "If"
  | nil_ => "Nil"
  | or_ => "Or"
  | print_ => "Print"
  | return_ => "Return"
  | super_ => "Super"
  | this_ => "This"
  | true_ => "True"
  | var_ => "Var"
  | while_ => "While"

/-- The keyword with this spelling. Capital letters are not those of a keyword. -/
def ofText? (word : String) : Option Keyword :=
  all.find? fun k => k.text = word

end Keyword

/-! ## Tokens -/

/-- What a token stands for, without its payload. -/
inductive Kind
  | symbol (s : Symbol)
  | keyword (k : Keyword)
  | identifier
  | string
  | number
  | ending
  deriving DecidableEq, Repr

namespace Kind

/-- The kinds, each once. -/
def all : List Kind :=
  Symbol.all.map symbol ++ Keyword.all.map keyword ++ [identifier, string, number, ending]

/-- The name in a token listing. -/
def name : Kind → String
  | symbol s => s.name
  | keyword k => k.name
  | identifier => "Identifier"
  | string => "Str"
  | number => "Number"
  | ending => "Eof"

end Kind

/-- What a token stands for. A string's text is what stands between its quotation marks. -/
inductive Meaning
  | symbol (s : Symbol)
  | keyword (k : Keyword)
  | identifier (name : String)
  | string (text : String)
  | number (value : Float)
  | ending
  deriving BEq, Repr

/-- The kind of a meaning. -/
def Meaning.kind : Meaning → Kind
  | symbol s => .symbol s
  | keyword k => .keyword k
  | identifier _ => .identifier
  | string _ => .string
  | number _ => .number
  | ending => .ending

/-- A piece of a source: what it stands for, the piece itself, and the line it ends on. In `==`
two numbers are compared as numbers: a zero equals its negative. -/
structure Token where
  meaning : Meaning
  lexeme : String
  line : Nat
  deriving BEq, Repr

namespace Token

/-- The kind of a token. -/
def kind (t : Token) : Kind := t.meaning.kind

/-- The marker that ends a token sequence. -/
def isEnding (t : Token) : Bool := t.kind = .ending

/-- The end marker on a line. -/
def endMarker (line : Nat) : Token := ⟨.ending, "", line⟩

end Token

end Lox
