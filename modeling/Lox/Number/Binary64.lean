/-
Doubles as whole numbers of one small unit.

Apart from its sign every finite double is `m · 2^e` units of `2^-1074`, for natural numbers `m`
below `2^53` and `e`. With the unit fixed, no exponent is ever negative, and both directions
between doubles and decimals become arithmetic on natural numbers. This file holds the passage
between bit patterns and such magnitudes, and the rounding of a quotient to the nearest double.

The bit pattern of `m · 2^e` units is the number `e · 2^52 + m`. This needs no case for the
implicit leading bit: a mantissa of `2^52` or more carries into the exponent field, which is just
what that field counts.
-/

set_option autoImplicit false

namespace Lox.Number

/-! ## Magnitudes -/

/-- A finite double without its sign: `mantissa · 2^exponent` units of `2^-1074`. -/
structure Magnitude where
  mantissa : Nat
  exponent : Nat
  deriving DecidableEq, Repr

/-- The bit pattern of infinity, the first one that stands for no finite double. -/
def infinityBits : Nat := 2047 * Nat.pow 2 52

/-- The magnitude that a bit pattern below `infinityBits` stands for. -/
def Magnitude.ofBits (bits : Nat) : Magnitude :=
  let field := Nat.pow 2 52
  if bits < field then ⟨bits, 0⟩ else ⟨field + bits % field, bits / field - 1⟩

/-- The bit pattern of a magnitude. -/
def Magnitude.toBits (x : Magnitude) : Nat :=
  x.exponent * Nat.pow 2 52 + x.mantissa

theorem Magnitude.toBits_ofBits (bits : Nat) : (Magnitude.ofBits bits).toBits = bits := by
  unfold Magnitude.ofBits Magnitude.toBits
  simp only [Nat.pow_eq]
  split <;> simp only <;> omega

/-! ## Rounding to the nearest double -/

/-- Division to the nearest whole number, a half going to the even neighbour. -/
def roundedDiv (num den : Nat) : Nat :=
  let quotient := num / den
  let twice := 2 * (num % den)
  if twice < den then quotient
  else if den < twice then quotient + 1
  else quotient + quotient % 2

/-- The bit pattern of the double nearest to `num / den`. The exponent is the least one that
leaves a quotient below `2^53`; a quotient rounded up to `2^53` carries into the exponent field by
itself, and what is too large for every finite double becomes infinity. -/
def nearestBits (num den : Nat) : Nat :=
  let units := num * Nat.pow 2 1074
  let exponent := (units / den).log2 - 52
  min infinityBits (Magnitude.toBits ⟨roundedDiv units (den * Nat.pow 2 exponent), exponent⟩)

/-- The double nearest to `num / den`, of two equally near the one with the even mantissa. -/
def nearest (num den : Nat) : Float :=
  Float.ofBits (nearestBits num den).toUInt64

end Lox.Number
