/-
The shortest decimal that reads back as a given double.

All reals that are nearer to a double than to any other read back as that double. Of the decimals
among them the shortest is on the coarsest grid of multiples of a power of ten that has a point
there at all, and of that grid's points the one nearest to the double is taken, the upper one if
two are equally near.

A double is a whole number of units of `2^-1074`, hence also one of `10^-1074`, so the grids end
at `10^-1074` and the search ends there at the latest, at the double itself. Powers of ten are
counted from that finest grid. The bounds of the reals that read back lie at half, and below a
power of two at a quarter, of the distance to the next double; counted in quarters all bounds are
whole numbers.
-/
import Lox.Number.Binary64

set_option autoImplicit false

namespace Lox.Number

/-! ## What reads back as a double -/

/-- The distance of neighbouring doubles with this exponent, in units of `10^-1074`. -/
def Magnitude.spacing (x : Magnitude) : Nat :=
  Nat.pow 2 x.exponent * Nat.pow 5 1074

/-- The magnitude in quarters of `10^-1074`. -/
def Magnitude.quarters (x : Magnitude) : Nat :=
  4 * x.mantissa * x.spacing

/-- A real, in quarters of `10^-1074`, is rounded to `x`. The neighbour below a power of two is
only half as far away as the one above. A real on the bound itself goes to the even mantissa. -/
def Magnitude.attracts (x : Magnitude) (real : Nat) : Bool :=
  let below := if x.mantissa = Nat.pow 2 52 ∧ x.exponent ≠ 0 then 1 else 2
  let low := (4 * x.mantissa - below) * x.spacing
  let high := (4 * x.mantissa + 2) * x.spacing
  if x.mantissa % 2 = 0 then low ≤ real && real ≤ high else low < real && real < high

/-! ## The coarsest grid with a point there -/

/-- A decimal: `digits · 10^power` units of `10^-1074`. -/
structure Decimal where
  digits : Nat
  power : Nat
  deriving DecidableEq, Repr

/-- The multiple of `10^power` that reads back as `x` and is nearest to it. Only the two
multiples around `x` can be. -/
def Magnitude.onGrid? (x : Magnitude) (power : Nat) : Option Nat :=
  let grid := 4 * Nat.pow 10 power
  let down := x.quarters / grid
  match x.attracts (down * grid), x.attracts ((down + 1) * grid) with
  | true, false => some down
  | false, true => some (down + 1)
  | true, true => some (if 2 * (x.quarters % grid) < grid then down else down + 1)
  | false, false => none

/-- The decimal of the coarsest grid, from `10^power` downwards. -/
def Magnitude.coarsest (x : Magnitude) : Nat → Decimal
  | 0 => ⟨x.mantissa * x.spacing, 0⟩
  | power + 1 =>
    match x.onGrid? (power + 1) with
    | some digits => ⟨digits, power + 1⟩
    | none => x.coarsest power

/-- A power of ten that is above the number. A binary digit is worth less than 0.30103 decimal
digits. -/
def powerAbove (n : Nat) : Nat :=
  (n.log2 + 1) * 30103 / 100000 + 1

/-- The shortest decimal that reads back as `x`. The search starts at a grid too coarse to have
a point there other than zero. Zero is on every grid and is given as itself. -/
def Magnitude.shortest (x : Magnitude) : Decimal :=
  if x.mantissa = 0 then ⟨0, 1074⟩
  else x.coarsest (powerAbove (x.mantissa * x.spacing))

end Lox.Number
