/-
What is rounded to a double.

A quotient is rounded in two steps: the exponent is chosen so that the mantissa has at most 53 binary
digits, and the mantissa is the nearest whole number. `Magnitude.attracts` says without any rounding
which reals are nearer to a double than to its neighbours. This file shows that the two fit: a
quotient that a finite double attracts is rounded to that double (`nearestBits_of_attracts`).

There are two cases only. Almost everywhere the quotient has the exponent of the double, and its
mantissa is at most half a unit away. Below a power of two the neighbours are twice as dense; a
quotient that is attracted from there has the next lower exponent, and its mantissa is rounded up to
`2^53`, which carries into the exponent field.
-/
import Mathlib.Tactic.Linarith
import Mathlib.Tactic.Ring
import Lox.Number.Shortest

set_option autoImplicit false

namespace Lox.Number

/-! ## Rounding to a whole number -/

/-- The quotient is at most half a unit away from `m`, and less than that if `m` is odd. -/
structure Rounds (num den m : Nat) : Prop where
  low : 2 * (m * den) ≤ 2 * num + den
  high : 2 * num ≤ 2 * (m * den) + den
  even_of_low : 2 * (m * den) = 2 * num + den → m % 2 = 0
  even_of_high : 2 * num = 2 * (m * den) + den → m % 2 = 0

/-- Division rounds to the whole number that is nearest. -/
theorem roundedDiv_of_rounds {num den m : Nat} (hden : 0 < den) (h : Rounds num den m) :
    roundedDiv num den = m := by
  obtain ⟨low, high, heven, heven'⟩ := h
  have hsplit : num / den * den + num % den = num := Nat.div_add_mod' num den
  have hrest : num % den < den := Nat.mod_lt num hden
  -- the whole number is the quotient rounded down, or the one above it
  have hle : num / den ≤ m := by
    by_contra hlt
    have hmul := Nat.mul_le_mul_right den (show m + 1 ≤ num / den by omega)
    rw [Nat.add_mul, Nat.one_mul] at hmul
    omega
  have hle' : m ≤ num / den + 1 := by
    by_contra hlt
    have hmul := Nat.mul_le_mul_right den (show num / den + 2 ≤ m by omega)
    rw [Nat.add_mul] at hmul
    omega
  unfold roundedDiv
  simp only
  generalize num / den = quotient at *
  obtain rfl | rfl : m = quotient ∨ m = quotient + 1 := by omega
  · by_cases hbelow : 2 * (num % den) < den
    · rw [if_pos hbelow]
    · rw [if_neg hbelow, if_neg (by omega), heven' (by omega), Nat.add_zero]
  · rw [Nat.add_mul, Nat.one_mul] at low high heven heven'
    rw [if_neg (by omega)]
    by_cases habove : den < 2 * (num % den)
    · rw [if_pos habove]
    · have := heven (by omega)
      rw [if_neg habove]
      omega

/-! ## Finite doubles -/

namespace Magnitude

variable {x : Magnitude}

/-- The magnitude is that of a finite double: the mantissa has 53 binary digits, unless the exponent
is the least one. -/
structure Finite (x : Magnitude) : Prop where
  mantissa_lt : x.mantissa < 2 ^ 53
  exponent_le : x.exponent ≤ 2045
  le_mantissa : x.exponent ≠ 0 → 2 ^ 52 ≤ x.mantissa

theorem ofBits_finite {bits : Nat} (h : bits < infinityBits) : (ofBits bits).Finite := by
  rw [infinityBits, Nat.pow_eq] at h
  unfold ofBits
  simp only [Nat.pow_eq]
  by_cases hsmall : bits < 2 ^ 52
  · rw [if_pos hsmall]
    exact ⟨by simp only; omega, by simp, by simp⟩
  · rw [if_neg hsmall]
    exact ⟨by simp only; omega, by simp only; omega, by simp⟩

theorem Finite.toBits_lt (hx : x.Finite) : x.toBits < infinityBits := by
  obtain ⟨hmantissa, hexponent, -⟩ := hx
  rw [toBits, infinityBits, Nat.pow_eq]
  omega

/-! ### The reals around a double -/

/-- How far the reals that are rounded to the double reach down, in quarters of the distance to the
next double above. -/
def reach (x : Magnitude) : Nat :=
  if x.mantissa = 2 ^ 52 ∧ x.exponent ≠ 0 then 1 else 2

theorem attracts_iff (real : Nat) :
    x.attracts real = true ↔ (4 * x.mantissa - x.reach) * x.spacing ≤ real ∧
      real ≤ (4 * x.mantissa + 2) * x.spacing ∧
      (x.mantissa % 2 ≠ 0 → (4 * x.mantissa - x.reach) * x.spacing < real ∧
        real < (4 * x.mantissa + 2) * x.spacing) := by
  unfold attracts
  simp only [Nat.pow_eq]
  change (if _ then decide ((4 * x.mantissa - x.reach) * x.spacing ≤ real) && _ else
    decide ((4 * x.mantissa - x.reach) * x.spacing < real) && _) = true ↔ _
  by_cases heven : x.mantissa % 2 = 0
  · simp [heven]
  · simp only [heven, if_false, Bool.and_eq_true, decide_eq_true_eq, ne_eq, not_false_eq_true,
      forall_const]
    omega

theorem spacing_pos (x : Magnitude) : 0 < x.spacing := by
  unfold spacing
  generalize 1074 = power
  exact Nat.mul_pos (Nat.pow_pos (by decide)) (Nat.pow_pos (by decide))

/-- A double attracts itself. -/
theorem attracts_quarters (x : Magnitude) : x.attracts x.quarters = true := by
  have hspacing := x.spacing_pos
  have hreach : 0 < x.reach := by
    unfold reach
    split <;> decide
  rw [attracts_iff, quarters]
  generalize x.spacing = unit at *
  have hlow := Nat.mul_le_mul_right unit (show 4 * x.mantissa - x.reach ≤ 4 * x.mantissa by omega)
  have hhigh := Nat.mul_lt_mul_of_pos_right
    (show 4 * x.mantissa < 4 * x.mantissa + 2 by omega) hspacing
  refine ⟨hlow, Nat.le_of_lt hhigh, fun hodd => ⟨?_, hhigh⟩⟩
  exact Nat.mul_lt_mul_of_pos_right (by omega) hspacing

/-! ## From a quotient to its double -/

/-- The quotient, in units of `2^-1074`, lies where it is rounded to the double. -/
structure Draws (x : Magnitude) (units den : Nat) : Prop where
  low : (4 * x.mantissa - x.reach) * (2 ^ x.exponent * den) ≤ 4 * units
  high : 4 * units ≤ (4 * x.mantissa + 2) * (2 ^ x.exponent * den)
  strict : x.mantissa % 2 ≠ 0 → (4 * x.mantissa - x.reach) * (2 ^ x.exponent * den) < 4 * units ∧
    4 * units < (4 * x.mantissa + 2) * (2 ^ x.exponent * den)

/-- The exponent of a quotient between these bounds. -/
theorem exponent_eq {units den exponent : Nat} (hden : 0 < den)
    (hlow : exponent ≠ 0 → 2 ^ 52 * (2 ^ exponent * den) ≤ units)
    (hhigh : units < 2 ^ 53 * (2 ^ exponent * den)) : (units / den).log2 - 52 = exponent := by
  have hlt : units / den < 2 ^ (exponent + 53) := by
    rw [Nat.div_lt_iff_lt_mul hden, Nat.pow_add, Nat.mul_comm (2 ^ exponent), Nat.mul_assoc]
    exact hhigh
  by_cases hzero : exponent = 0
  · subst hzero
    by_cases hnone : units / den = 0
    · rw [hnone, Nat.log2_zero]
    · have := (Nat.log2_lt hnone).2 hlt
      omega
  · have hle : 2 ^ (exponent + 52) ≤ units / den := by
      rw [Nat.le_div_iff_mul_le hden, Nat.pow_add, Nat.mul_comm (2 ^ exponent), Nat.mul_assoc]
      exact hlow hzero
    have hsome : units / den ≠ 0 := by
      have := Nat.two_pow_pos (exponent + 52)
      omega
    rw [(Nat.log2_eq_iff hsome).2 ⟨hle, hlt⟩]
    omega

/-- A quotient with the exponent of the double has its mantissa. -/
theorem Draws.rounds {units den : Nat} (h : x.Draws units den) (hden : 0 < den)
    (hreach : x.reach = 2 ∨ x.mantissa * (2 ^ x.exponent * den) ≤ units) :
    Rounds units (den * 2 ^ x.exponent) x.mantissa := by
  obtain ⟨low, high, strict⟩ := h
  rw [Nat.mul_comm den]
  have hunit : 0 < 2 ^ x.exponent * den := Nat.mul_pos (Nat.two_pow_pos _) hden
  generalize 2 ^ x.exponent * den = unit at *
  have hhigh : (4 * x.mantissa + 2) * unit = 4 * (x.mantissa * unit) + 2 * unit := by ring
  rw [hhigh] at high strict
  rcases hreach with hreach | hinside
  · have hlow : (4 * x.mantissa - x.reach) * unit = 4 * (x.mantissa * unit) - 2 * unit := by
      rw [hreach, Nat.sub_mul, Nat.mul_assoc]
    rw [hlow] at low strict
    rcases Nat.eq_zero_or_pos x.mantissa with hnone | hsome
    · have hzero : x.mantissa * unit = 0 := by rw [hnone, Nat.zero_mul]
      exact ⟨by omega, by omega, by omega, by omega⟩
    · have hle := Nat.le_mul_of_pos_left unit hsome
      exact ⟨by omega, by omega, by omega, by omega⟩
  · exact ⟨by omega, by omega, by omega, by omega⟩

section Below

variable {units den exponent : Nat} (h : x.Draws units den) (hexponent : x.exponent = exponent + 1)
  (hmantissa : x.mantissa = 2 ^ 52) (hbelow : units < x.mantissa * (2 ^ x.exponent * den))
include h hexponent hmantissa hbelow

/-- Below a power of two the quotient is half a unit away from it, in units of the exponent below. -/
theorem Draws.bounds_below : 2 * (2 ^ 53 * (2 ^ exponent * den)) ≤ 2 * units + 2 ^ exponent * den ∧
    units < 2 ^ 53 * (2 ^ exponent * den) := by
  have hreach : x.reach = 1 := by rw [reach, if_pos ⟨hmantissa, by omega⟩]
  have hunit : 2 ^ x.exponent * den = 2 * (2 ^ exponent * den) := by
    rw [hexponent]
    ring
  have low := h.low
  rw [hmantissa, hreach, hunit] at low
  rw [hmantissa, hunit] at hbelow
  omega

/-- So it has the exponent below, and its mantissa is rounded up. -/
theorem Draws.rounds_below : Rounds units (den * 2 ^ exponent) (2 ^ 53) := by
  obtain ⟨low, high⟩ := h.bounds_below hexponent hmantissa hbelow
  have heven : 2 ^ 53 % 2 = 0 := Nat.two_pow_mod_two_eq_zero.2 (by decide)
  rw [Nat.mul_comm den]
  exact ⟨low, by omega, fun _ => heven, fun _ => heven⟩

end Below

/-- The two cases of a quotient: it has the exponent of the double, or it is below a power of two and
has the exponent below. -/
theorem Finite.draws_cases {units den : Nat} (hx : x.Finite) (h : x.Draws units den) :
    ((x.reach = 2 ∨ x.mantissa * (2 ^ x.exponent * den) ≤ units) ∧
      (x.exponent ≠ 0 → 2 ^ 52 * (2 ^ x.exponent * den) ≤ units)) ∨
    ∃ exponent, x.exponent = exponent + 1 ∧ x.mantissa = 2 ^ 52 ∧
      units < x.mantissa * (2 ^ x.exponent * den) := by
  have low := h.low
  generalize hunit : 2 ^ x.exponent * den = unit at *
  by_cases hpower : x.mantissa = 2 ^ 52 ∧ x.exponent ≠ 0
  · by_cases hbelow : units < x.mantissa * unit
    · exact .inr ⟨x.exponent - 1, by omega, hpower.1, hbelow⟩
    · rw [Nat.not_lt] at hbelow
      exact .inl ⟨.inr hbelow, fun _ => hpower.1 ▸ hbelow⟩
  · have hreach : x.reach = 2 := by rw [reach, if_neg hpower]
    refine .inl ⟨.inl hreach, fun hne => ?_⟩
    -- the mantissa is greater than `2^52`, so half a unit below it is not below `2^52`
    have hle := hx.le_mantissa hne
    have hlow := Nat.mul_le_mul_right unit (show 4 * 2 ^ 52 ≤ 4 * x.mantissa - x.reach by omega)
    rw [Nat.mul_assoc] at hlow
    omega

/-- A quotient that a finite double draws is rounded to it. -/
theorem Finite.nearestBits_of_draws {num den : Nat} (hx : x.Finite) (hden : 0 < den)
    (h : x.Draws (num * Nat.pow 2 1074) den) : nearestBits num den = x.toBits := by
  have hbits := Nat.le_of_lt hx.toBits_lt
  unfold nearestBits
  generalize num * Nat.pow 2 1074 = units at *
  have hunit : ∀ exponent, 0 < den * 2 ^ exponent := fun _ => Nat.mul_pos hden (Nat.two_pow_pos _)
  rcases hx.draws_cases h with ⟨hreach, hlow⟩ | ⟨exponent, hexponent, hmantissa, hbelow⟩
  · have hhigh : units < 2 ^ 53 * (2 ^ x.exponent * den) := by
      have hnext := Nat.mul_lt_mul_of_pos_right
        (show 4 * x.mantissa + 2 < 4 * 2 ^ 53 by have := hx.mantissa_lt; omega) (hunit x.exponent)
      rw [Nat.mul_comm den, Nat.mul_assoc] at hnext
      have := h.high
      omega
    have hrounded := roundedDiv_of_rounds (hunit _) (h.rounds hden hreach)
    simp only [exponent_eq hden hlow hhigh, Nat.pow_eq, hrounded]
    exact Nat.min_eq_right hbits
  · obtain ⟨hlow, hhigh⟩ := h.bounds_below hexponent hmantissa hbelow
    have hbelow' : (units / den).log2 - 52 = exponent :=
      exponent_eq hden (fun _ => by omega) hhigh
    have hrounded := roundedDiv_of_rounds (hunit _) (h.rounds_below hexponent hmantissa hbelow)
    -- the mantissa `2^53` carries into the exponent field
    have hcarry : toBits ⟨2 ^ 53, exponent⟩ = x.toBits := by
      rw [toBits, toBits, hexponent, hmantissa, Nat.pow_eq]
      simp only
      omega
    simp only [hbelow', Nat.pow_eq, hrounded, hcarry]
    exact Nat.min_eq_right hbits

/-- Two quantities compare as they do when both are measured in another unit. -/
theorem compare_rescaled {a b a' b' unit unit' : Nat} (hunit : 0 < unit) (hunit' : 0 < unit')
    (ha : a * unit = a' * unit') (hb : b * unit = b' * unit') :
    (a ≤ b ↔ a' ≤ b') ∧ (a < b ↔ a' < b') := by
  rw [← Nat.mul_le_mul_right_iff hunit, ← Nat.mul_lt_mul_right hunit, ha, hb,
    Nat.mul_le_mul_right_iff hunit', Nat.mul_lt_mul_right hunit']
  exact ⟨Iff.rfl, Iff.rfl⟩

/-- A quotient that is one of the reals that a double attracts is drawn to it: the bounds are the same
in quarters of `10^-1074` and in units of `2^-1074`. -/
theorem draws_of_attracts {num den real : Nat} (hden : 0 < den)
    (hreal : real * den = 4 * (num * Nat.pow 10 1074)) (h : x.attracts real = true) :
    x.Draws (num * Nat.pow 2 1074) den := by
  obtain ⟨low, high, strict⟩ := (attracts_iff real).1 h
  unfold spacing at low high strict
  generalize 1074 = places at *
  have hfactor : 0 < Nat.pow 5 places := Nat.pow_pos (by decide)
  have hten : Nat.pow 10 places = Nat.pow 2 places * Nat.pow 5 places := Nat.mul_pow 2 5 places
  have hreal' : real * den = 4 * (num * Nat.pow 2 places) * Nat.pow 5 places := by
    rw [hreal, hten]
    ring
  have hbound : ∀ bound : Nat, bound * (Nat.pow 2 x.exponent * Nat.pow 5 places) * den =
      bound * (2 ^ x.exponent * den) * Nat.pow 5 places := by
    intro bound
    rw [Nat.pow_eq]
    ring
  have hlow := compare_rescaled hden hfactor (hbound (4 * x.mantissa - x.reach)) hreal'
  have hhigh := compare_rescaled hden hfactor hreal' (hbound (4 * x.mantissa + 2))
  exact ⟨hlow.1.1 low, hhigh.1.1 high, fun hodd =>
    ⟨hlow.2.1 (strict hodd).1, hhigh.2.1 (strict hodd).2⟩⟩

/-- **Rounding finds the double that attracts.** A quotient that is, counted in quarters of
`10^-1074`, one of the reals that a finite double attracts is rounded to that double. -/
theorem Finite.nearestBits_of_attracts {num den real : Nat} (hx : x.Finite) (hden : 0 < den)
    (hreal : real * den = 4 * (num * Nat.pow 10 1074)) (h : x.attracts real = true) :
    nearestBits num den = x.toBits :=
  hx.nearestBits_of_draws hden (draws_of_attracts hden hreal h)

end Magnitude

end Lox.Number
