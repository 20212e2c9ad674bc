/-
Values: what literals stand for and what expressions come to.

There are four kinds, and nothing turns a value of one kind into one of another. A value has two
written forms, which differ for infinite numbers only: the one that `print` writes, and the one in
a tree written out.
-/
import Lox.Number.Positional

set_option autoImplicit false

namespace Lox

/-- A value. -/
inductive Value
  | number (x : Float)
  | string (text : String)
  | bool (b : Bool)
  | nil
  deriving Repr

namespace Value

/-- Everything is true but `nil` and `false`, also zero and the empty string. -/
def truthy : Value → Bool
  | nil => false
  | bool b => b
  | _ => true

/-- Equality as the language has it. Numbers are equal as numbers: zero equals negative zero, and
what is not a number equals nothing. Values of different kinds are never equal. -/
protected def beq : Value → Value → Bool
  | number x, number y => x == y
  | string s, string t => s == t
  | bool a, bool b => a == b
  | nil, nil => true
  | _, _ => false

instance : BEq Value := ⟨Value.beq⟩

/-! ## Written forms -/

/-- A value written out, with the given words for numbers that are not finite. -/
def render (words : Number.Words) : Value → String
  | number x => Number.render words x
  | string text => text
  | bool true => "true"
  | bool false => "false"
  | nil => "nil"

/-- What `print` writes. -/
def text (v : Value) : String :=
  v.render ⟨"+Inf", "-Inf", "NaN"⟩

/-- How a literal stands in a tree written out. -/
def literalText (v : Value) : String :=
  v.render ⟨"inf", "-inf", "NaN"⟩

end Value

end Lox
