/-
Doubles and their bits.

A double is its bit pattern: the sign bit, the exponent field and the mantissa field. What is not
finite has the largest exponent, so the pattern without its sign bit tells the finite doubles from the
others (`isFinite_iff`). Every pattern up to that of infinity is the pattern of its double
(`toBits_ofBits`), and negation changes the sign bit only (`neg_ofBits`).

With this, a finite number is written as digits, with a sign in front if the sign bit is set, and the
digits are read as the number without its sign (`render_finite`). What is read from digits is never
negative and always a number.
-/
import Mathlib
import Lox.Proofs.Number.ReadBack

set_option autoImplicit false

namespace Lox.Number

open Float.Model Float.Model.UnpackedFloat

/-- The sign bit is set: the number is below zero, or it is negative zero. -/
def Negative (x : Float) : Prop := 2 ^ 63 ≤ x.toBits.toNat

instance (x : Float) : Decidable (Negative x) :=
  inferInstanceAs (Decidable (_ ≤ _))

/-! ## The fields of a pattern -/

section Fields

variable (b : BitVec Format.binary64.numBits)

theorem toNat_unpackMantissa : (unpackMantissa b).toNat = b.toNat % 2 ^ 52 := by
  rw [unpackMantissa_def, BitVec.extractLsb'_toNat, Nat.shiftRight_zero]

theorem toNat_unpackExponent : (unpackExponent b).toNat = b.toNat / 2 ^ 52 % 2 ^ 11 := by
  rw [unpackExponent_def, BitVec.extractLsb'_toNat, Nat.shiftRight_eq_div_pow]

theorem toNat_unpackSign : (unpackSign b).toNat = b.toNat / 2 ^ 63 % 2 := by
  rw [unpackSign_def, BitVec.extractLsb'_toNat, Nat.shiftRight_eq_div_pow, Nat.pow_one]
  rfl

/-- The largest exponent is that of infinity and of what is no number. -/
theorem unpackExponent_eq_iff : unpackExponent b = -1#_ ↔ infinityBits ≤ b.toNat % 2 ^ 63 := by
  have hlargest : (-1#_ : BitVec Format.binary64.exponentBits).toNat = 2047 := by decide
  rw [← BitVec.toNat_inj, toNat_unpackExponent, hlargest, infinityBits, Nat.pow_eq]
  omega

theorem isNaNBits_eq_false (h : b.toNat % 2 ^ 63 ≤ infinityBits) : isNaNBits b = false := by
  unfold isNaNBits
  rw [decide_eq_false_iff_not, unpackExponent_eq_iff]
  rintro ⟨hexponent, hmantissa⟩
  apply hmantissa
  rw [← BitVec.toNat_inj, toNat_unpackMantissa, BitVec.toNat_zero]
  rw [infinityBits, Nat.pow_eq] at h hexponent
  omega

end Fields

/-- Finite is what has not the largest exponent. -/
theorem isFinite_unpack {spec : Format} (b : BitVec spec.numBits) :
    (UnpackedFloat.unpack spec b).isFinite = true ↔ unpackExponent b ≠ -1#_ := by
  unfold UnpackedFloat.unpack
  simp only
  by_cases hlargest : unpackExponent b = -1#_
  · rw [if_pos hlargest]
    split <;> simp [UnpackedFloat.isFinite, hlargest]
  · rw [if_neg hlargest]
    split
    · split <;> simp [UnpackedFloat.isFinite, hlargest]
    · simp [UnpackedFloat.isFinite, hlargest]

theorem isFinite_iff (x : Float) : x.isFinite = true ↔ x.toBits.toNat % 2 ^ 63 < infinityBits := by
  let b : BitVec Format.binary64.numBits := x.toBits.toBitVec
  have hunpack := isFinite_unpack b
  rw [ne_eq, unpackExponent_eq_iff, Nat.not_le] at hunpack
  exact hunpack

/-! ## From a pattern to its double -/

/-- A pattern that is not one of those that are no number is kept. -/
theorem pack_unpack_toNat (bits : UInt64) (h : bits.toNat % 2 ^ 63 ≤ infinityBits) :
    UnpackedFloat.pack Format.binary64 (UnpackedFloat.unpack Format.binary64 bits.toBitVec) =
      bits.toBitVec := by
  rw [pack_unpack, isNaNBits_eq_false _ h]
  rfl

theorem toBits_ofBits {bits : Nat} (h : bits ≤ infinityBits) :
    (Float.ofBits bits.toUInt64).toBits.toNat = bits := by
  have hsmall : infinityBits < 2 ^ 63 := by decide
  have hbits : bits.toUInt64.toNat = bits := by
    rw [Nat.toUInt64_eq, UInt64.toNat_ofNat']
    exact Nat.mod_eq_of_lt (Nat.lt_trans (Nat.lt_of_le_of_lt h hsmall) (by decide))
  have hkept := pack_unpack_toNat bits.toUInt64 (by rw [hbits]; omega)
  change (UnpackedFloat.pack Format.binary64
    (UnpackedFloat.unpack Format.binary64 bits.toUInt64.toBitVec)).toNat = bits
  rw [hkept, UInt64.toNat_toBitVec, hbits]

/-- Two patterns that differ in the sign bit only are unpacked to opposite doubles. -/
theorem neg_unpack {spec : Format} {b b' : BitVec spec.numBits}
    (hexponent : unpackExponent b' = unpackExponent b)
    (hmantissa : unpackMantissa b' = unpackMantissa b)
    (hsign : Sign.ofBitVec (unpackSign b') = -Sign.ofBitVec (unpackSign b)) :
    (UnpackedFloat.unpack spec b).neg = UnpackedFloat.unpack spec b' := by
  unfold UnpackedFloat.unpack
  simp only [hmantissa, hexponent, hsign]
  split
  · split <;> rfl
  · split
    · split <;> rfl
    · rfl

/-- With the sign bit set, a pattern is unpacked to the opposite. -/
theorem neg_unpack_of_sign {b b' : BitVec Format.binary64.numBits} (h : b.toNat ≤ infinityBits)
    (hb : b'.toNat = 2 ^ 63 + b.toNat) :
    (UnpackedFloat.unpack Format.binary64 b).neg = UnpackedFloat.unpack Format.binary64 b' := by
  rw [infinityBits, Nat.pow_eq] at h
  have hexponent : unpackExponent b' = unpackExponent b := by
    rw [← BitVec.toNat_inj, toNat_unpackExponent, toNat_unpackExponent, hb]
    omega
  have hmantissa : unpackMantissa b' = unpackMantissa b := by
    rw [← BitVec.toNat_inj, toNat_unpackMantissa, toNat_unpackMantissa, hb]
    omega
  have hpositive : unpackSign b = 0#1 := by
    rw [← BitVec.toNat_inj, toNat_unpackSign, BitVec.toNat_zero]
    omega
  have hnegative : unpackSign b' = 1#1 := by
    rw [← BitVec.toNat_inj, toNat_unpackSign, hb, BitVec.toNat_one (by decide)]
    omega
  apply neg_unpack hexponent hmantissa
  rw [hpositive, hnegative]
  rfl

/-- A number whose sign bit is set is the opposite of the number without it. -/
theorem neg_ofBits {x : Float} {bits : Nat} (h : bits ≤ infinityBits)
    (hx : x.toBits.toNat = 2 ^ 63 + bits) : -Float.ofBits bits.toUInt64 = x := by
  let b : BitVec Format.binary64.numBits := (Float.ofBits bits.toUInt64).toBits.toBitVec
  let b' : BitVec Format.binary64.numBits := x.toBits.toBitVec
  have hb : b.toNat = bits := toBits_ofBits h
  have hb' : b'.toNat = 2 ^ 63 + b.toNat := by
    rw [hb]
    exact hx
  have hunpack := neg_unpack_of_sign (hb.trans_le h) hb'
  have hpack : -Float.ofBits bits.toUInt64 = Float.ofBits x.toBits :=
    congrArg (fun u => (⟨Float.Model.pack u⟩ : Float)) hunpack
  rw [hpack, Float.ofBits_toBits]

/-! ## What is read and what is written -/

/-- No quotient is rounded to a negative number, or to none. -/
theorem nearestBits_le (num den : Nat) : nearestBits num den ≤ infinityBits :=
  Nat.min_le_left _ _

theorem toBits_nearest (num den : Nat) : (nearest num den).toBits.toNat = nearestBits num den :=
  toBits_ofBits (nearestBits_le num den)

/-- A finite number is written as digits with at most one point between them, which are read as the
number without its sign; with the sign in front, if it has one. -/
theorem render_finite {x : Float} (hfinite : x.isFinite = true) (words : Words) :
    ∃ text num den, Positional text num den ∧
      if Negative x then render words x = String.ofList ('-' :: text) ∧ -ofDigits text = x
      else render words x = String.ofList text ∧ ofDigits text = x := by
  rw [isFinite_iff] at hfinite
  obtain ⟨num, den, htext, -⟩ :=
    (Magnitude.ofBits (x.toBits.toNat % 2 ^ 63)).shortest.positional_text
  refine ⟨_, num, den, htext, ?_⟩
  rw [(Magnitude.ofBits_finite hfinite).ofDigits_shortest, Magnitude.toBits_ofBits]
  have hrender : render words x =
      let text := (Magnitude.ofBits (x.toBits.toNat % 2 ^ 63)).shortest.text
      String.ofList (if 2 ^ 63 ≤ x.toBits.toNat then '-' :: text else text) := by
    unfold render
    simp only [Nat.pow_eq]
    rw [if_neg (Nat.not_lt.2 (Nat.le_of_lt hfinite)), if_neg (Nat.ne_of_lt hfinite)]
  rw [hrender]
  have hbits := x.toBits.toNat_lt
  by_cases hnegative : Negative x
  · have hset : 2 ^ 63 ≤ x.toBits.toNat := hnegative
    rw [if_pos hnegative]
    simp only [if_pos hset, true_and]
    exact neg_ofBits (Nat.le_of_lt hfinite) (by omega)
  · have hclear : ¬ 2 ^ 63 ≤ x.toBits.toNat := hnegative
    rw [if_neg hnegative]
    simp only [if_neg hclear, true_and]
    rw [Nat.mod_eq_of_lt (by omega), Nat.toUInt64_eq, UInt64.ofNat_toNat, Float.ofBits_toBits]

/-- A number that is not finite is written as a word. -/
theorem render_not_finite {x : Float} (hfinite : x.isFinite = false) (words : Words) :
    render words x ∈ [words.positiveInfinity, words.negativeInfinity, words.notANumber] := by
  rw [← Bool.not_eq_true, isFinite_iff, Nat.not_lt] at hfinite
  unfold render
  simp only [Nat.pow_eq]
  by_cases hinfinite : x.toBits.toNat % 2 ^ 63 = infinityBits
  · rw [if_neg (by omega), if_pos hinfinite]
    split <;> simp
  · rw [if_pos (by omega)]
    simp

/-- What is read from digits is written as digits that are read as the same, or it is infinite. -/
theorem render_ofDigits (text : List Char) (words : Words) :
    (render words (ofDigits text) = words.positiveInfinity ∧
        ofDigits text = Float.ofBits infinityBits.toUInt64) ∨
      ∃ shown num den, Positional shown num den ∧
        render words (ofDigits text) = String.ofList shown ∧ ofDigits shown = ofDigits text := by
  have hsmall : infinityBits < 2 ^ 63 := by decide
  have hle : (ofDigits text).toBits.toNat ≤ infinityBits :=
    (toBits_nearest _ _).trans_le (nearestBits_le _ _)
  generalize ofDigits text = x at *
  have hclear : ¬ Negative x := Nat.not_le.2 (Nat.lt_of_le_of_lt hle hsmall)
  have hmagnitude : x.toBits.toNat % 2 ^ 63 = x.toBits.toNat := Nat.mod_eq_of_lt (by omega)
  by_cases hinfinite : x.toBits.toNat = infinityBits
  · left
    constructor
    · have hset : ¬ 2 ^ 63 ≤ x.toBits.toNat := hclear
      unfold render
      simp only [Nat.pow_eq, hmagnitude]
      rw [if_neg (by omega), if_pos hinfinite, if_neg hset]
    · rw [← hinfinite, Nat.toUInt64_eq, UInt64.ofNat_toNat, Float.ofBits_toBits]
  · right
    have hfinite : x.isFinite = true := by
      rw [isFinite_iff]
      omega
    obtain ⟨shown, num, den, hshown, hrender⟩ := render_finite hfinite words
    rw [if_neg hclear] at hrender
    exact ⟨shown, num, den, hshown, hrender⟩

end Lox.Number
