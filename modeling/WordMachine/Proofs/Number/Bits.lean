import Mathlib
import WordMachine.Number.Binary64

/-! # Numbers and their bits

A number is determined by its sign and its magnitude, the bits that remain. A NaN has many
patterns of bits, and all of them stand for one number.
-/

namespace WordMachine

namespace Binary64

open Float.Model Float.Model.UnpackedFloat

/-- The mantissa is the last 52 bits. -/
theorem toNat_unpackMantissa (b : BitVec Format.binary64.numBits) :
    (unpackMantissa b).toNat = b.toNat % 2 ^ 52 := by
  simp [unpackMantissa]

/-- The exponent is the eleven bits before the mantissa. -/
theorem toNat_unpackExponent (b : BitVec Format.binary64.numBits) :
    (unpackExponent b).toNat = b.toNat / 2 ^ 52 % 2 ^ 11 := by
  simp [unpackExponent, Nat.shiftRight_eq_div_pow]

/-- A number is determined by its sign and its magnitude. -/
theorem ofMagnitude_magnitude (x : Float) :
    ofMagnitude (isNegative x) (magnitude x) = x := by
  have bound : x.toBits.toNat < 2 ^ 64 := x.toBits.toNat_lt
  have bits : (if isNegative x then signBit + magnitude x else magnitude x) = x.toBits.toNat := by
    unfold isNegative magnitude signBit
    split
    · next negative =>
        have := of_decide_eq_true negative
        omega
    · next positive =>
        have := of_decide_eq_false (Bool.eq_false_iff.mpr positive)
        omega
  rw [ofMagnitude, bits, UInt64.ofNat_toNat, Float.ofBits_toBits]

/-- There is one NaN. -/
theorem eq_nan_of_isNaN {x : Float} (undefined : isNaN x = true) : x = nan := by
  have large := of_decide_eq_true undefined
  unfold magnitude signBit infinity at large
  obtain ⟨⟨bits, valid⟩⟩ := x
  have bound : bits.toNat < 2 ^ 64 := bits.toNat_lt
  change 0x7FF0000000000000 < bits.toNat % 0x8000000000000000 at large
  have exponent : @unpackExponent .binary64 bits.toBitVec = -1#_ := by
    apply BitVec.eq_of_toNat_eq
    rw [toNat_unpackExponent]
    change bits.toNat / 2 ^ 52 % 2 ^ 11 = 2047
    omega
  have mantissa : @unpackMantissa .binary64 bits.toBitVec ≠ 0#_ := by
    intro zero
    have none := congrArg BitVec.toNat zero
    rw [toNat_unpackMantissa] at none
    change bits.toNat % 2 ^ 52 = 0 at none
    omega
  have canonical := valid.eq_packedNaN exponent mantissa
  have same : bits = UInt64.ofBitVec (packedNaN .binary64) := by
    rw [← canonical]
  subst same
  rfl

/-- A number that is neither finite nor a NaN is infinite. -/
theorem magnitude_eq_infinity {x : Float} (infinite : isFinite x = false)
    (defined : isNaN x = false) : magnitude x = infinity := by
  have above := of_decide_eq_false infinite
  have below := of_decide_eq_false defined
  omega

/-- Bits that are not those of a NaN are kept. -/
theorem toBits_ofBits {bits : UInt64} (defined : bits.toNat % signBit ≤ infinity) :
    (Float.ofBits bits).toBits = bits := by
  have ordinary : ¬ @isNaNBits .binary64 bits.toBitVec = true := by
    intro undefined
    obtain ⟨exponent, mantissa⟩ := of_decide_eq_true undefined
    have large := congrArg BitVec.toNat exponent
    rw [toNat_unpackExponent] at large
    change bits.toNat / 2 ^ 52 % 2 ^ 11 = 2047 at large
    apply mantissa
    apply BitVec.eq_of_toNat_eq
    rw [toNat_unpackMantissa]
    change bits.toNat % 2 ^ 52 = 0
    unfold signBit infinity at defined
    omega
  apply UInt64.toBitVec_inj.mp
  exact (@pack_unpack .binary64 bits.toBitVec (by decide)).trans (if_neg ordinary)

/-- A number is the bits of its sign and of its magnitude, unless it is a NaN. -/
theorem toBits_ofMagnitude (negative : Bool) {m : Nat} (defined : m ≤ infinity) :
    (ofMagnitude negative m).toBits.toNat = if negative then signBit + m else m := by
  have bits : (UInt64.ofNat (if negative then signBit + m else m)).toNat =
      if negative then signBit + m else m := by
    rw [UInt64.toNat_ofNat']
    apply Nat.mod_eq_of_lt
    unfold signBit infinity at *
    split <;> omega
  rw [ofMagnitude, toBits_ofBits, bits]
  rw [bits]
  unfold signBit infinity at *
  split <;> omega

/-- A magnitude up to infinity is kept. -/
theorem magnitude_ofMagnitude (negative : Bool) {m : Nat} (defined : m ≤ infinity) :
    magnitude (ofMagnitude negative m) = m := by
  rw [magnitude, toBits_ofMagnitude negative defined]
  unfold signBit infinity at *
  split <;> omega

end Binary64

end WordMachine
