/-
Numbers as plain decimal text.

A number is written with the fewest digits that read back, always positionally and never with an
exponent, however long that gets; a whole number has no point. It is read from digits with at most
one point among them, and what is read is the nearest double.

The words for what is not a finite number differ between the places where numbers are shown, so
they are a parameter.
-/
import Lox.Number.Shortest

set_option autoImplicit false

namespace Lox.Number

/-! ## Writing -/

/-- A decimal written out by position. -/
def Decimal.text (d : Decimal) : List Char :=
  let digits := Nat.toDigits 10 d.digits
  if 1074 ≤ d.power then digits ++ List.replicate (d.power - 1074) '0'
  else
    let places := 1074 - d.power
    let padded := List.replicate (places + 1 - digits.length) '0' ++ digits
    let whole := padded.length - places
    padded.take whole ++ '.' :: padded.drop whole

/-- The words for the numbers that are not finite. -/
structure Words where
  positiveInfinity : String
  negativeInfinity : String
  notANumber : String
  deriving DecidableEq, Repr

/-- A number written out. A negative zero keeps its sign. -/
def render (words : Words) (x : Float) : String :=
  let bits := x.toBits.toNat
  let magnitude := bits % Nat.pow 2 63
  let negative := Nat.pow 2 63 ≤ bits
  if infinityBits < magnitude then words.notANumber
  else if magnitude = infinityBits then
    if negative then words.negativeInfinity else words.positiveInfinity
  else
    let text := (Magnitude.ofBits magnitude).shortest.text
    String.ofList (if negative then '-' :: text else text)

/-! ## Reading -/

/-- The number that digits with at most one point among them stand for. -/
def ofDigits (text : List Char) : Float :=
  let whole := text.takeWhile (· != '.')
  let fraction := (text.dropWhile (· != '.')).drop 1
  nearest (Nat.ofDigitChars 10 (whole ++ fraction) 0) (Nat.pow 10 fraction.length)

end Lox.Number
