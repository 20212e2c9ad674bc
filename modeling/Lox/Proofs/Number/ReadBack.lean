/-
Numbers that are written and read again.

The digits of a number are those of a decimal that the number attracts, whichever grid it was found
on, and at the latest those of the number itself. Written by position, a decimal is digits with at
most one point between them, and these are read as the same quotient. So what is read is rounded to
the number that was written (`ofDigits_shortest`). This is about magnitudes; the sign is not theirs.
-/
import Lox.Number.Positional
import Lox.Proofs.Number.Rounding

set_option autoImplicit false

namespace Lox.Number

/-! ## The shortest decimal is attracted -/

/-- A decimal in units of `10^-1074`. -/
def Decimal.units (d : Decimal) : Nat := d.digits * Nat.pow 10 d.power

namespace Magnitude

variable {x : Magnitude}

theorem attracts_of_onGrid? {power digits : Nat} (h : x.onGrid? power = some digits) :
    x.attracts (4 * (digits * Nat.pow 10 power)) = true := by
  unfold onGrid? at h
  simp only at h
  rw [Nat.mul_left_comm]
  split at h
  · rename_i hdown _
    obtain rfl := Option.some.inj h
    exact hdown
  · rename_i _ hup
    obtain rfl := Option.some.inj h
    exact hup
  · rename_i hdown hup
    obtain rfl := Option.some.inj h
    split
    · exact hdown
    · exact hup
  · cases h

/-- Whatever grid the search ends on, its decimal is attracted. -/
theorem attracts_coarsest (x : Magnitude) (power : Nat) :
    x.attracts (4 * (x.coarsest power).units) = true := by
  induction power with
  | zero =>
    have hunits : (x.coarsest 0).units = x.mantissa * x.spacing := Nat.mul_one _
    rw [hunits, ← Nat.mul_assoc]
    exact x.attracts_quarters
  | succ power ih =>
    unfold coarsest
    split
    · rename_i digits hdigits
      exact attracts_of_onGrid? hdigits
    · exact ih

theorem attracts_shortest (x : Magnitude) : x.attracts (4 * x.shortest.units) = true := by
  unfold shortest
  by_cases hzero : x.mantissa = 0
  · have hquarters := x.attracts_quarters
    rw [quarters, hzero, Nat.mul_zero, Nat.zero_mul] at hquarters
    rw [if_pos hzero, Decimal.units, Nat.zero_mul]
    exact hquarters
  · rw [if_neg hzero]
    exact x.attracts_coarsest _

end Magnitude

/-! ## Texts by position -/

/-- The text is digits with at most one point between them, and stands for the quotient. -/
inductive Positional : List Char → Nat → Nat → Prop
  | whole {digits : List Char} : digits ≠ [] → (∀ c ∈ digits, c.isDigit = true) →
      Positional digits (Nat.ofDigitChars 10 digits 0) 1
  | decimal {digits places : List Char} : digits ≠ [] → (∀ c ∈ digits, c.isDigit = true) →
      places ≠ [] → (∀ c ∈ places, c.isDigit = true) →
      Positional (digits ++ '.' :: places) (Nat.ofDigitChars 10 (digits ++ places) 0)
        (Nat.pow 10 places.length)

/-- No digit is the point. -/
theorem ne_point_of_isDigit {c : Char} (h : c.isDigit = true) : (c != '.') = true := by
  rw [bne_iff_ne]
  rintro rfl
  cases h

namespace Positional

variable {text : List Char} {num den : Nat}

theorem den_pos (h : Positional text num den) : 0 < den := by
  cases h with
  | whole _ _ => exact Nat.one_pos
  | decimal _ _ _ _ => exact Nat.pow_pos (by decide)

theorem isDigit_or_point (h : Positional text num den) :
    ∀ c ∈ text, c.isDigit = true ∨ c = '.' := by
  intro c hc
  cases h with
  | whole _ hdigits => exact .inl (hdigits c hc)
  | decimal _ hdigits _ hplaces =>
    rcases List.mem_append.1 hc with hc | hc
    · exact .inl (hdigits c hc)
    · rcases List.mem_cons.1 hc with hpoint | hc
      · exact .inr hpoint
      · exact .inl (hplaces c hc)

/-- The text is read as the double that is nearest to the quotient. -/
theorem ofDigits_eq (h : Positional text num den) : ofDigits text = nearest num den := by
  cases h with
  | whole _ hdigits =>
    have hall : ∀ c ∈ text, (c != '.') = true := fun c hc => ne_point_of_isDigit (hdigits c hc)
    have htake : text.takeWhile (· != '.') = text := by
      rw [← List.append_nil text, List.takeWhile_append_of_pos hall, List.takeWhile_nil]
    have hdrop : text.dropWhile (· != '.') = [] := by
      rw [← List.append_nil text, List.dropWhile_append_of_pos hall, List.dropWhile_nil]
    unfold ofDigits
    simp only [htake, hdrop, List.drop_nil, List.append_nil, List.length_nil, Nat.pow_eq,
      Nat.pow_zero]
  | @decimal digits places _ hdigits _ _ =>
    have hall : ∀ c ∈ digits, (c != '.') = true := fun c hc => ne_point_of_isDigit (hdigits c hc)
    have htake : (digits ++ '.' :: places).takeWhile (· != '.') = digits := by
      rw [List.takeWhile_append_of_pos hall, List.takeWhile_cons_of_neg (by decide),
        List.append_nil]
    have hdrop : (digits ++ '.' :: places).dropWhile (· != '.') = '.' :: places := by
      rw [List.dropWhile_append_of_pos hall, List.dropWhile_cons_of_neg (by decide)]
    unfold ofDigits
    simp only [htake, hdrop, List.drop_one, List.tail_cons]

end Positional

/-- Zeros in front change nothing. -/
theorem ofDigitChars_zeros (count : Nat) (digits : List Char) :
    Nat.ofDigitChars 10 (List.replicate count '0' ++ digits) 0 = Nat.ofDigitChars 10 digits 0 := by
  rw [Nat.ofDigitChars_append, Nat.ofDigitChars_replicate_zero, Nat.mul_zero]

/-- A decimal is written as digits with at most one point between them, which stand for it. -/
theorem Decimal.positional_text (d : Decimal) :
    ∃ num den, Positional d.text num den ∧ d.units * den = num * Nat.pow 10 1074 := by
  have hdigit : ∀ c ∈ Nat.toDigits 10 d.digits, c.isDigit = true :=
    fun c hc => Nat.isDigit_of_mem_toDigits (by decide) (by decide) hc
  have hzero : ∀ count, ∀ c ∈ List.replicate count '0', c.isDigit = true := by
    intro count c hc
    rw [(List.mem_replicate.1 hc).2]
    rfl
  unfold Decimal.text Decimal.units
  generalize 1074 = finest
  generalize hd : Nat.toDigits 10 d.digits = digits at *
  have hvalue : Nat.ofDigitChars 10 digits 0 = d.digits := by
    rw [← hd, Nat.ofDigitChars_ten_toDigits]
  have hsome : digits ≠ [] := hd ▸ Nat.toDigits_ne_nil
  simp only [Nat.pow_eq]
  by_cases hwhole : finest ≤ d.power
  · rw [if_pos hwhole]
    refine ⟨_, _, .whole (List.append_ne_nil_of_left_ne_nil hsome _) ?_, ?_⟩
    · intro c hc
      exact (List.mem_append.1 hc).elim (hdigit c) (hzero _ c)
    · rw [Nat.ofDigitChars_append, Nat.ofDigitChars_replicate_zero, hvalue, Nat.mul_one,
        Nat.mul_comm (10 ^ _), Nat.mul_assoc, ← Nat.pow_add, Nat.sub_add_cancel hwhole]
  · rw [if_neg hwhole]
    -- there are zeros in front so that at least one digit stands before the point
    generalize hpadded : List.replicate (finest - d.power + 1 - digits.length) '0' ++ digits = padded
    have hlength : finest - d.power < padded.length := by
      rw [← hpadded, List.length_append, List.length_replicate]
      omega
    have hpaddedDigit : ∀ c ∈ padded, c.isDigit = true := by
      intro c hc
      rw [← hpadded] at hc
      exact (List.mem_append.1 hc).elim (hzero _ c) (hdigit c)
    have hplaces : (padded.drop (padded.length - (finest - d.power))).length = finest - d.power := by
      rw [List.length_drop]
      omega
    have htake : padded.take (padded.length - (finest - d.power)) ≠ [] := by
      apply List.ne_nil_of_length_pos
      rw [List.length_take]
      omega
    have hdrop : padded.drop (padded.length - (finest - d.power)) ≠ [] := by
      apply List.ne_nil_of_length_pos
      omega
    refine ⟨_, _, .decimal htake (fun c hc => hpaddedDigit c (List.mem_of_mem_take hc)) hdrop
      (fun c hc => hpaddedDigit c (List.mem_of_mem_drop hc)), ?_⟩
    rw [List.take_append_drop, hplaces, Nat.pow_eq, ← hpadded, ofDigitChars_zeros, hvalue,
      Nat.mul_assoc, ← Nat.pow_add, Nat.add_sub_cancel' (Nat.le_of_not_le hwhole)]

/-- **The digits of a number are read as that number.** -/
theorem Magnitude.Finite.ofDigits_shortest {x : Magnitude} (hx : x.Finite) :
    ofDigits x.shortest.text = Float.ofBits x.toBits.toUInt64 := by
  obtain ⟨num, den, htext, hunits⟩ := x.shortest.positional_text
  have hreal : 4 * x.shortest.units * den = 4 * (num * Nat.pow 10 1074) := by
    rw [Nat.mul_assoc, hunits]
  rw [htext.ofDigits_eq, nearest,
    hx.nearestBits_of_attracts htext.den_pos hreal x.attracts_shortest]

end Lox.Number
