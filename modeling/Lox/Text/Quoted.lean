/-
Quoted texts.

A text is quoted to be shown on one line without loss: inside quotation marks, with a backslash in
front of what would end the quotation or the line, and with the code point in place of a character
that would not be seen. An apostrophe needs no escape inside quotation marks.
-/
import Lox.Text.Unprintable

set_option autoImplicit false

namespace Lox.Text

/-- A code point in hexadecimal, lowercase and without leading zeros, as `\u` and braces. -/
def codePointEscape (c : Char) : List Char :=
  '\\' :: 'u' :: '\x7b' :: Nat.toDigits 16 c.toNat ++ ['\x7d']

/-- One character inside a quotation. -/
def quotedChar (c : Char) : List Char :=
  match c with
  | '"' => ['\\', '"']
  | '\\' => ['\\', '\\']
  | '\n' => ['\\', 'n']
  | '\r' => ['\\', 'r']
  | '\t' => ['\\', 't']
  | '\x00' => ['\\', '0']
  | c => if isShown c then [c] else codePointEscape c

/-- The quotation of a text. -/
def quoted (text : String) : String :=
  String.ofList ('"' :: text.toList.flatMap quotedChar ++ ['"'])

end Lox.Text
