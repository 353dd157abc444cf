import WordMachine.Proofs.Number.Bits
import WordMachine.Proofs.Number.Shortest

/-! # Whole numbers

A number that is whole is so many units, and a division by the units of one gives it back.
Cutting a finite number to an integer of 64 bits divides in the same way, and clamps, so
that a whole number within the bounds of 64 bits stays what it is. The digits of a whole
number are read as the number.
-/

namespace WordMachine

namespace Binary64

open Float.Model Float.Model.UnpackedFloat

/-! ## Cutting to 64 bits -/

theorem toNat_unpackSign (b : BitVec Format.binary64.numBits) :
    (unpackSign b).toNat = b.toNat / 2 ^ 63 % 2 := by
  simp [unpackSign, Nat.shiftRight_eq_div_pow]

/-- The sign of a number. -/
def sign (x : Float) : Sign :=
  if isNegative x then .negative else .positive

theorem ofBitVec_unpackSign (x : Float) :
    Sign.ofBitVec (@unpackSign .binary64 x.toBits.toBitVec) = sign x := by
  have bit := @toNat_unpackSign x.toBits.toBitVec
  have bound : x.toBits.toNat < 2 ^ 64 := x.toBits.toNat_lt
  have same : x.toBits.toBitVec.toNat = x.toBits.toNat := rfl
  unfold Sign.ofBitVec sign isNegative signBit
  by_cases negative : 0x8000000000000000 ≤ x.toBits.toNat
  · rw [if_neg, if_pos (decide_eq_true negative)]
    intro zero
    rw [zero] at bit
    change 0 = _ at bit
    omega
  · rw [if_pos, if_neg (by simpa using negative)]
    apply BitVec.eq_of_toNat_eq
    rw [bit]
    change _ = 0
    omega

theorem unpackExponent_eq (x : Float) :
    (@unpackExponent .binary64 x.toBits.toBitVec).toNat = magnitude x / binade := by
  have bound : x.toBits.toNat < 2 ^ 64 := x.toBits.toNat_lt
  rw [toNat_unpackExponent]
  change x.toBits.toNat / 2 ^ 52 % 2 ^ 11 = _
  unfold magnitude signBit binade
  omega

theorem unpackMantissa_eq (x : Float) :
    (@unpackMantissa .binary64 x.toBits.toBitVec).toNat = magnitude x % binade := by
  rw [toNat_unpackMantissa]
  change x.toBits.toNat % 2 ^ 52 = _
  unfold magnitude signBit binade
  omega

theorem unpackExponent_ne {x : Float} (finite : isFinite x = true) :
    @unpackExponent .binary64 x.toBits.toBitVec ≠ -1#_ := by
  have below := of_decide_eq_true finite
  rw [Ne, ← BitVec.toNat_inj, unpackExponent_eq]
  change magnitude x / binade ≠ 2047
  unfold binade infinity at *
  omega

theorem unpackExponent_eq_zero_iff (x : Float) :
    @unpackExponent .binary64 x.toBits.toBitVec = 0#_ ↔ magnitude x < binade := by
  rw [← BitVec.toNat_inj, unpackExponent_eq]
  change magnitude x / binade = 0 ↔ _
  unfold binade
  omega

/-- The bits of a number from its second binade on, with the one that is not stored. -/
theorem toNat_append_unpackMantissa (x : Float) :
    (1#1 ++ @unpackMantissa .binary64 x.toBits.toBitVec).toNat =
      binade + magnitude x % binade := by
  rw [BitVec.toNat_append, ← Nat.shiftLeft_add_eq_or_of_lt (BitVec.isLt _), unpackMantissa_eq]
  rfl

/-- Shifting to the right divides by a power of two. -/
theorem mantissa_repeat_shiftRightOne (count : Nat) (extended : ExtendedMantissa) :
    (count.repeat ExtendedMantissa.shiftRightOne extended).mantissa =
      extended.mantissa / 2 ^ count := by
  induction count with
  | zero => rw [Nat.repeat, pow_zero, Nat.div_one]
  | succ count ih =>
      rw [Nat.repeat, ExtendedMantissa.shiftRightOne]
      dsimp only
      rw [ih, Nat.div_div_eq_div_mul, ← pow_succ]

/-- Rounding toward zero divides the number of units. -/
theorem roundToInt_eq (sign : Sign) (mantissa exponent : Nat) :
    roundToInt sign mantissa ((exponent : Int) - (1074 : Nat)) =
      sign.apply (mantissa * Nat.pow 2 exponent / one : Nat) := by
  unfold one
  generalize 1074 = places
  unfold roundToInt decreaseExponent shiftToExponent
  dsimp only
  congr 2
  change (Nat.repeat ExtendedMantissa.shiftRightOne _ _).mantissa = _
  rw [mantissa_repeat_shiftRightOne]
  change mantissa <<< _ / _ = _
  rw [Nat.shiftLeft_eq, Nat.pow_eq, Nat.pow_eq]
  rcases Nat.le_total places exponent with large | small
  · have left : ((exponent : Int) - places - 0).toNat = exponent - places := by omega
    have right : (0 - ((exponent : Int) - places - (exponent - places : Nat))).toNat = 0 := by omega
    have split : 2 ^ exponent = 2 ^ (exponent - places) * 2 ^ places := by
      rw [← pow_add, Nat.sub_add_cancel large]
    rw [left, right, pow_zero, Nat.div_one, split, ← Nat.mul_assoc,
      Nat.mul_div_cancel _ (Nat.two_pow_pos places)]
  · have left : ((exponent : Int) - places - 0).toNat = 0 := by omega
    have right : (0 - ((exponent : Int) - places - (0 : Nat))).toNat = places - exponent := by omega
    have split : 2 ^ places = 2 ^ (places - exponent) * 2 ^ exponent := by
      rw [← pow_add, Nat.sub_add_cancel small]
    rw [left, right, pow_zero, Nat.mul_one, split,
      Nat.mul_div_mul_right _ _ (Nat.two_pow_pos exponent)]

/-- A finite number is cut to a whole number toward zero. -/
theorem toInt_unpack {x : Float} (finite : isFinite x = true) (least greatest : Int) :
    x.toModel.unpack.toInt least greatest = (sign x).apply (units (magnitude x) / one : Nat) := by
  change (UnpackedFloat.unpack .binary64 x.toBits.toBitVec).toInt least greatest = _
  simp only [UnpackedFloat.unpack, ofBitVec_unpackSign, unpackExponent_eq,
    if_neg (unpackExponent_ne finite)]
  by_cases small : magnitude x < binade
  · have mantissa := unpackMantissa_eq x
    rw [Nat.mod_eq_of_lt small] at mantissa
    rw [if_pos ((unpackExponent_eq_zero_iff x).mpr small), units, if_pos small,
      Nat.div_eq_of_lt small]
    split
    · next zero =>
        rw [zero] at mantissa
        rw [← mantissa, BitVec.toNat_zero, Nat.zero_div]
        cases sign x with
        | negative => rfl
        | positive => rfl
    · change roundToInt _ _ ((0 : Nat) - (1074 : Nat)) = _
      rw [roundToInt_eq, mantissa, Nat.pow_eq, pow_zero, Nat.mul_one]
  · have exponent : ((magnitude x / binade : Nat) : Int) - 1075 =
        ((magnitude x / binade - 1 : Nat) : Int) - (1074 : Nat) := by
      unfold binade at *
      omega
    rw [if_neg ((unpackExponent_eq_zero_iff x).not.mpr small), units, if_neg small]
    change roundToInt _ _ (((magnitude x / binade : Nat) : Int) - 1075) = _
    rw [toNat_append_unpackMantissa, exponent, roundToInt_eq]

/-! ## Whole numbers -/

/-- A whole number, its sign and how many units it is. -/
theorem of_toInt? {x : Float} {n : Int} (whole : toInt? x = some n) :
    isFinite x = true ∧ n.natAbs * one = units (magnitude x) ∧ n = (sign x).apply n.natAbs := by
  unfold toInt? at whole
  dsimp only at whole
  split at whole
  · next exact_units =>
      obtain ⟨finite, divides⟩ := Bool.and_eq_true_iff.mp exact_units
      have count := Nat.div_mul_cancel (Nat.dvd_of_mod_eq_zero (beq_iff_eq.mp divides))
      unfold sign
      cases whole
      cases isNegative x with
      | true =>
          simp only [↓reduceIte, Int.natAbs_neg, Int.natAbs_natCast]
          exact ⟨finite, count, rfl⟩
      | false =>
          simp only [Bool.false_eq_true, ↓reduceIte, Int.natAbs_natCast]
          exact ⟨finite, count, rfl⟩
  · cases whole

/-- A whole number within the bounds of 64 bits is not changed by a cut to them. -/
theorem toInt_toInt64 {x : Float} {n : Int} (whole : toInt? x = some n)
    (least : Int64.minValue.toInt ≤ n) (greatest : n ≤ Int64.maxValue.toInt) :
    x.toModel.toInt64.toInt = n := by
  obtain ⟨finite, count, signed⟩ := of_toInt? whole
  change (Int64.ofIntClamp (x.toModel.unpack.toInt _ _)).toInt = n
  rw [toInt_unpack finite, ← count, Nat.mul_div_cancel _ one_positive, ← signed,
    Int64.toInt_ofIntClamp least greatest]

end Binary64

namespace Decimal

open Binary64

/-- The digits of a whole number are read as the number. -/
theorem magnitude_of_units {digits magnitude : Nat} (finite : magnitude < infinity)
    (count : digits * one = units magnitude) : Decimal.magnitude digits 0 = magnitude := by
  by_cases zero : digits = 0
  · rw [zero, Nat.zero_mul] at count
    rw [zero, magnitude_zero]
    by_contra nonzero
    exact (units_pos (Nat.pos_of_ne_zero (Ne.symm nonzero))).ne count
  · have positive : 0 < units magnitude := by
      rw [← count]
      exact Nat.mul_pos (Nat.pos_of_ne_zero zero) one_positive
    rw [magnitude_eq zero (by decide) (by decide), show tens 0 = 1 from rfl,
      show tenths 0 = 1 from rfl, Nat.mul_one, count]
    exact ofUnits_of_close finite ⟨by omega, by omega⟩

end Decimal

end WordMachine
