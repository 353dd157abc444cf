import Mathlib.Tactic.Ring
import WordMachine.Number.Shortest
import WordMachine.Proofs.Number.Rounding
import WordMachine.Proofs.Text

/-! # The shortest digits read back

Seventeen digits always suffice: the nearer neighbour of a number on the grid of its
seventeenth digit is closer to it than a part in `2 ^ 54` and so rounds to it. The search
for the shortest digits therefore ends on one of its grids and never falls back to the
exact digits.
-/

namespace WordMachine

namespace Decimal

/-! ## Powers of ten -/

/-- The power of ten that a nonnegative exponent multiplies by. -/
def tens (exponent : Int) : Nat :=
  10 ^ exponent.toNat

/-- The power of ten that a negative exponent divides by. -/
def tenths (exponent : Int) : Nat :=
  10 ^ (-exponent).toNat

theorem tens_pos (exponent : Int) : 0 < tens exponent :=
  Nat.pow_pos (by decide)

theorem tenths_pos (exponent : Int) : 0 < tenths exponent :=
  Nat.pow_pos (by decide)

/-- A power of ten that is taken out shortens the exponent. -/
theorem tens_add (exponent : Int) (count : Nat) :
    tens (exponent + count) * tenths exponent =
      10 ^ count * tens exponent * tenths (exponent + count) := by
  unfold tens tenths
  rw [← pow_add, ← pow_add, ← pow_add]
  congr 1
  omega

/-- The two parts of a power of ten balance each other. -/
theorem tens_mul_pow (first second : Nat) :
    tens ((first : Int) - second) * 10 ^ second = 10 ^ first * tenths ((first : Int) - second) := by
  unfold tens tenths
  rw [← pow_add, ← pow_add]
  congr 1
  omega

/-! ## The number nearest to a decimal value -/

/-- No digits write zero, whatever the exponent. -/
theorem magnitude_zero (exponent : Int) : magnitude 0 exponent = 0 :=
  if_pos rfl

/-- Between the two bounds on the exponent the value is rounded as it is. -/
theorem magnitude_eq {digits : Nat} {exponent : Int} (positive : digits ≠ 0)
    (low : -400 ≤ exponent) (high : exponent ≤ 400) :
    magnitude digits exponent =
      Binary64.ofUnits (digits * tens exponent * Binary64.one) (tenths exponent) := by
  unfold magnitude tens tenths
  rw [if_neg positive, if_neg (by omega), if_neg (by omega)]
  by_cases whole : 0 ≤ exponent
  · rw [if_pos whole, Nat.pow_eq, show (-exponent).toNat = 0 by omega, pow_zero]
  · rw [if_neg whole, Nat.pow_eq, show exponent.toNat = 0 by omega, pow_zero, Nat.mul_one]

/-- Zeros that end the digits count as a larger exponent. -/
theorem magnitude_mul_pow (digits : Nat) {exponent : Int} (count : Nat) (low : -400 ≤ exponent)
    (high : exponent + count ≤ 400) :
    magnitude (digits * 10 ^ count) exponent = magnitude digits (exponent + count) := by
  by_cases zero : digits = 0
  · rw [zero, Nat.zero_mul, magnitude_zero, magnitude_zero]
  · have positive : digits * 10 ^ count ≠ 0 := Nat.mul_ne_zero zero (Nat.pow_pos (by decide)).ne'
    rw [magnitude_eq positive low (by omega), magnitude_eq zero (by omega) high]
    apply Binary64.ofUnits_congr (tenths_pos _) (tenths_pos _)
    calc
      digits * 10 ^ count * tens exponent * Binary64.one * tenths (exponent + count) =
          digits * Binary64.one * (10 ^ count * tens exponent * tenths (exponent + count)) := by
            ring
      _ = digits * Binary64.one * (tens (exponent + count) * tenths exponent) := by
          rw [tens_add]
      _ = digits * tens (exponent + count) * Binary64.one * tenths exponent := by ring

end Decimal

namespace Binary64

/-- A positive number has units. -/
theorem units_pos {magnitude : Nat} (positive : 0 < magnitude) : 0 < units magnitude := by
  unfold units
  split
  · exact positive
  · exact Nat.mul_pos (Nat.add_pos_left (by decide) _) (Nat.pow_pos (by decide))

/-- A number has 53 bits at most, shifted by the position of its binade. -/
theorem units_lt {magnitude shift : Nat} (exponent : magnitude / binade - 1 ≤ shift) :
    units magnitude < 2 ^ 53 * 2 ^ shift := by
  unfold units
  split
  · next small =>
      apply Nat.lt_of_lt_of_le (show magnitude < 2 ^ 53 by unfold binade at small; omega)
      exact Nat.le_mul_of_pos_right _ (Nat.two_pow_pos _)
  · have rest : binade + magnitude % binade < 2 ^ 53 := by
      have small : magnitude % binade < binade := Nat.mod_lt _ (by decide)
      unfold binade at *
      omega
    calc
      (binade + magnitude % binade) * 2 ^ (magnitude / binade - 1) <
          2 ^ 53 * 2 ^ (magnitude / binade - 1) :=
        Nat.mul_lt_mul_of_pos_right rest (Nat.two_pow_pos _)
      _ ≤ 2 ^ 53 * 2 ^ shift := Nat.mul_le_mul_left _ (Nat.pow_le_pow_right (by decide) exponent)

theorem one_positive : 0 < one := by
  decide +kernel

end Binary64

namespace Shortest

open Binary64 Decimal

/-! ## The position of the point -/

/-- A number is compared with a step of the grid as a ratio of units. -/
theorem gridRatio_eq (magnitude : Nat) (exponent : Int) :
    gridRatio magnitude exponent =
      (units magnitude * tenths exponent, one * tens exponent) := by
  unfold gridRatio tens tenths
  by_cases whole : 0 ≤ exponent
  · rw [if_pos whole, show (-exponent).toNat = 0 by omega, pow_zero, Nat.mul_one, Nat.pow_eq]
  · rw [if_neg whole, show exponent.toNat = 0 by omega, pow_zero, Nat.mul_one, Nat.pow_eq]

/-- A finer grid multiplies the units. -/
theorem gridRatio_neg (magnitude count : Nat) :
    gridRatio magnitude (-count) = (units magnitude * 10 ^ count, one) := by
  rw [gridRatio_eq, tens, tenths, neg_neg, Int.toNat_natCast, Int.toNat_neg_natCast, pow_zero,
    Nat.mul_one]

/-- A number between two powers of ten. -/
structure Between (magnitude : Nat) (point : Int) : Prop where
  low : one * tens (point - 1) ≤ units magnitude * tenths (point - 1)
  high : units magnitude * tenths point < one * tens point

/-- Scaling by powers of ten keeps the order. -/
theorem le_of_scaled {a b : Nat} {first second : Nat} (scaled : a * 10 ^ first ≤ b * 10 ^ second) :
    a * tens ((first : Int) - second) ≤ b * tenths ((first : Int) - second) := by
  have positive : 0 < 10 ^ second := Nat.pow_pos (by decide)
  apply Nat.le_of_mul_le_mul_right _ positive
  calc
    a * tens ((first : Int) - second) * 10 ^ second =
        a * (tens ((first : Int) - second) * 10 ^ second) := by ring
    _ = a * 10 ^ first * tenths ((first : Int) - second) := by rw [tens_mul_pow]; ring
    _ ≤ b * 10 ^ second * tenths ((first : Int) - second) := Nat.mul_le_mul_right _ scaled
    _ = b * tenths ((first : Int) - second) * 10 ^ second := by ring

/-- Scaling by powers of ten keeps the strict order. -/
theorem lt_of_scaled {a b : Nat} {first second : Nat} (scaled : b * 10 ^ second < a * 10 ^ first) :
    b * tenths ((first : Int) - second) < a * tens ((first : Int) - second) := by
  have positive : 0 < 10 ^ second := Nat.pow_pos (by decide)
  apply Nat.lt_of_mul_lt_mul_right (a := 10 ^ second)
  calc
    b * tenths ((first : Int) - second) * 10 ^ second =
        b * 10 ^ second * tenths ((first : Int) - second) := by ring
    _ < a * 10 ^ first * tenths ((first : Int) - second) :=
        Nat.mul_lt_mul_of_pos_right scaled (tenths_pos _)
    _ = a * tens ((first : Int) - second) * 10 ^ second := by
        rw [Nat.mul_assoc, ← tens_mul_pow]; ring

/-- The digits of a number on a fine grid say where its point stands. -/
theorem between_of_digits {magnitude scale n : Nat} (whole : units magnitude * 10 ^ scale / one = n)
    (positive : 0 < n) : Between magnitude (((Text.digitsOf n).length : Int) - scale) := by
  have low := Text.pow_length_digitsOf_le positive
  have high := Text.lt_pow_length_digitsOf n
  have some_digits : 0 < (Text.digitsOf n).length :=
    List.length_pos_iff.mpr (Text.digitsOf_ne_nil n)
  generalize (Text.digitsOf n).length = digits at *
  constructor
  · have scaled : one * 10 ^ (digits - 1) ≤ units magnitude * 10 ^ scale := by
      rw [← whole, Nat.le_div_iff_mul_le one_positive] at low
      rw [Nat.mul_comm one]
      exact low
    have same : (digits : Int) - scale - 1 = ((digits - 1 : Nat) : Int) - scale := by omega
    rw [same]
    exact le_of_scaled scaled
  · have scaled : units magnitude * 10 ^ scale < one * 10 ^ digits := by
      rw [← whole, Nat.div_lt_iff_lt_mul one_positive] at high
      rw [Nat.mul_comm one]
      exact high
    exact lt_of_scaled scaled

/-- The finite numbers other than zero lie between `10 ^ -330` and `10 ^ 309`. -/
theorem between_pointPosition {magnitude : Nat} (positive : 0 < magnitude)
    (finite : magnitude < infinity) :
    Between magnitude (pointPosition magnitude) ∧ -329 ≤ pointPosition magnitude ∧
      pointPosition magnitude ≤ 309 := by
  have bound := @units_lt magnitude 2045 (by unfold binade infinity at *; omega)
  have power : 0 < 10 ^ 330 := by decide +kernel
  have least : one ≤ 10 ^ 330 := by decide +kernel
  have most : 2 ^ 53 * 2 ^ 2045 * 10 ^ 330 < one * 10 ^ 639 := by decide +kernel
  have length : pointPosition magnitude =
      ((Text.digitsOf (units magnitude * 10 ^ 330 / one)).length : Int) - (330 : Nat) := by
    have ratio := gridRatio_neg magnitude 330
    rw [Nat.cast_ofNat] at ratio ⊢
    simp only [pointPosition, ratio]
  generalize whole : units magnitude * 10 ^ 330 / one = n at length
  have n_positive : 0 < n := by
    rw [← whole]
    apply Nat.div_pos _ one_positive
    exact Nat.le_trans least (Nat.le_mul_of_pos_left _ (units_pos positive))
  have n_small : n < 10 ^ 639 := by
    rw [← whole, Nat.div_lt_iff_lt_mul one_positive, Nat.mul_comm (10 ^ 639)]
    exact Nat.lt_trans (Nat.mul_lt_mul_of_pos_right bound power) most
  have few_digits := (@Text.length_digitsOf_le_iff n 639 (by decide)).mpr n_small
  have some_digits : 0 < (Text.digitsOf n).length :=
    List.length_pos_iff.mpr (Text.digitsOf_ne_nil n)
  rw [length]
  exact ⟨between_of_digits whole n_positive, by omega, by omega⟩

/-! ## Neighbours on a grid -/

/-- A coarser bound on a number is a bound on how often a finer grid goes into it. -/
theorem grid_le {magnitude : Nat} {exponent : Int} {count : Nat}
    (low : one * tens (exponent + count) ≤ units magnitude * tenths (exponent + count)) :
    one * tens exponent * 10 ^ count ≤ units magnitude * tenths exponent := by
  apply Nat.le_of_mul_le_mul_right _ (tenths_pos (exponent + count))
  calc
    one * tens exponent * 10 ^ count * tenths (exponent + count) =
        one * (10 ^ count * tens exponent * tenths (exponent + count)) := by ring
    _ = one * tens (exponent + count) * tenths exponent := by rw [← tens_add]; ring
    _ ≤ units magnitude * tenths (exponent + count) * tenths exponent :=
        Nat.mul_le_mul_right _ low
    _ = units magnitude * tenths exponent * tenths (exponent + count) := by ring

/-- A number below a step of a coarse grid is below so many steps of a finer one. -/
theorem grid_lt {magnitude : Nat} {exponent : Int} {count : Nat}
    (high : units magnitude * tenths (exponent + count) < one * tens (exponent + count)) :
    units magnitude * tenths exponent < one * tens exponent * 10 ^ count := by
  apply Nat.lt_of_mul_lt_mul_right (a := tenths (exponent + count))
  calc
    units magnitude * tenths exponent * tenths (exponent + count) =
        units magnitude * tenths (exponent + count) * tenths exponent := by ring
    _ < one * tens (exponent + count) * tenths exponent :=
        Nat.mul_lt_mul_of_pos_right high (tenths_pos _)
    _ = one * (10 ^ count * tens exponent * tenths (exponent + count)) := by
        rw [← tens_add]; ring
    _ = one * tens exponent * 10 ^ count * tenths (exponent + count) := by ring

/-- Digits whose value is close to a number read back as it. -/
theorem readsAs_of_close {magnitude digits : Nat} {exponent : Int} (finite : magnitude < infinity)
    (positive : digits ≠ 0) (low : -400 ≤ exponent) (high : exponent ≤ 400)
    (close : Close (digits * (one * tens exponent)) (tenths exponent) (units magnitude)) :
    Digits.readsAs ⟨digits, exponent⟩ magnitude = true := by
  have same : digits * tens exponent * one = digits * (one * tens exponent) := by ring
  rw [Digits.readsAs, beq_iff_eq, magnitude_eq positive low high, same]
  exact ofUnits_of_close finite close

/-- On a grid that goes into a number at least `10 ^ 16` times, the nearer neighbour reads
back. -/
theorem onGrid?_isSome (tie : Tie) {magnitude : Nat} {exponent : Int}
    (finite : magnitude < infinity)
    (low : -400 ≤ exponent) (high : exponent ≤ 400)
    (fine : one * tens exponent * 10 ^ 16 ≤ units magnitude * tenths exponent) :
    (onGrid? tie magnitude exponent).isSome = true := by
  have den_positive : 0 < one * tens exponent := Nat.mul_pos one_positive (tens_pos _)
  have parts := Nat.div_add_mod' (units magnitude * tenths exponent) (one * tens exponent)
  have rest := Nat.mod_lt (units magnitude * tenths exponent) den_positive
  have many : 10 ^ 16 ≤ units magnitude * tenths exponent / (one * tens exponent) :=
    (Nat.le_div_iff_mul_le den_positive).mpr ((Nat.mul_comm _ _).trans_le fine)
  have reads : ∀ digits, digits ≠ 0 →
      (units magnitude * tenths exponent) * (2 ^ 54 - 1) <
        digits * (one * tens exponent) * 2 ^ 54 →
      digits * (one * tens exponent) * 2 ^ 54 <
        (units magnitude * tenths exponent) * (2 ^ 54 + 1) →
      Digits.readsAs ⟨digits, exponent⟩ magnitude = true :=
    fun digits positive below above =>
      readsAs_of_close finite positive low high ⟨below, above⟩
  unfold onGrid?
  rw [gridRatio_eq]
  dsimp only
  generalize units magnitude * tenths exponent = num at *
  generalize one * tens exponent = den at *
  generalize num / den = quotient at *
  generalize num % den = remainder at *
  by_cases near : 2 * remainder ≤ den
  · rw [reads quotient (by omega) (by omega) (by omega)]
    cases Digits.readsAs ⟨quotient + 1, exponent⟩ magnitude <;> rfl
  · have above := reads (quotient + 1) (by omega) (by rw [Nat.add_mul]; omega)
      (by rw [Nat.add_mul]; omega)
    rw [above]
    cases Digits.readsAs ⟨quotient, exponent⟩ magnitude <;> rfl

/-- What a grid answers: a neighbour of the number that reads back. -/
theorem of_onGrid? {tie : Tie} {magnitude : Nat} {exponent : Int} {d : Digits}
    (answered : onGrid? tie magnitude exponent = some d) :
    d.exponent = exponent ∧ d.readsAs magnitude = true ∧
      d.digits ≤ units magnitude * tenths exponent / (one * tens exponent) + 1 := by
  unfold onGrid? at answered
  rw [gridRatio_eq] at answered
  dsimp only at answered
  split at answered
  · next below above =>
      split at answered
      · cases answered
        exact ⟨rfl, above, le_rfl⟩
      · cases answered
        exact ⟨rfl, below, Nat.le_succ _⟩
  · next below above =>
      cases answered
      exact ⟨rfl, below, Nat.le_succ _⟩
  · next below above =>
      cases answered
      exact ⟨rfl, above, le_rfl⟩
  · cases answered

/-! ## The search -/

/-- A search that some grid answers gives the answer of a grid. -/
theorem search_eq {tie : Tie} {magnitude : Nat} {exponent : Int} {count : Nat}
    (answered : ∃ steps < count, (onGrid? tie magnitude (exponent - steps)).isSome = true) :
    ∃ steps < count,
      onGrid? tie magnitude (exponent - steps) = some (search tie magnitude exponent count) := by
  induction count generalizing exponent with
  | zero =>
      obtain ⟨_, none, _⟩ := answered
      cases none
  | succ count ih =>
      cases first : onGrid? tie magnitude exponent with
      | some d =>
          refine ⟨0, Nat.succ_pos _, ?_⟩
          rw [Nat.cast_zero, Int.sub_zero, first, search, first]
      | none =>
          obtain ⟨steps, few, found⟩ := answered
          cases steps with
          | zero =>
              rw [Nat.cast_zero, Int.sub_zero, first] at found
              cases found
          | succ steps =>
              have later : exponent - ((steps + 1 : Nat) : Int) = exponent - 1 - steps := by omega
              rw [later] at found
              obtain ⟨more, bound, answer⟩ := ih ⟨steps, by omega, found⟩
              refine ⟨more + 1, by omega, ?_⟩
              rw [search, first, ← answer]
              congr 1
              omega

/-- What the shortest digits of a finite number are good for: they read back, and there
are few of them. -/
structure ReadBack (magnitude : Nat) (d : Digits) : Prop where
  reads : Decimal.magnitude d.digits d.exponent = magnitude
  few : d.digits ≤ 10 ^ 17
  low : -346 ≤ d.exponent
  high : d.exponent ≤ 309

/-- Zeros at the end do not count for reading back. -/
theorem readBack_trim {magnitude : Nat} {d : Digits} (back : ReadBack magnitude d)
    (high : d.exponent ≤ 308) : ReadBack magnitude (trim d) := by
  obtain ⟨reads, few, low, _⟩ := back
  unfold trim
  split
  · next zero =>
      have digits : d.digits / 10 * 10 ^ 1 = d.digits := by omega
      have same := magnitude_mul_pow (d.digits / 10) 1 (show -400 ≤ d.exponent by omega) (by omega)
      rw [digits, reads] at same
      refine ⟨same.symm, ?_, ?_, ?_⟩ <;> dsimp only <;> omega
  · exact ⟨reads, few, low, by omega⟩

/-- The shortest digits of a finite number read back. -/
theorem readBack_ofMagnitude (tie : Tie) {magnitude : Nat} (finite : magnitude < infinity) :
    ReadBack magnitude (ofMagnitude tie magnitude) := by
  unfold ofMagnitude
  by_cases zero : magnitude = 0
  · rw [if_pos zero, zero]
    exact ⟨rfl, by decide, by decide, by decide⟩
  · rw [if_neg zero]
    obtain ⟨⟨low, high⟩, least, most⟩ := between_pointPosition (Nat.pos_of_ne_zero zero) finite
    generalize pointPosition magnitude = point at *
    have answered : (onGrid? tie magnitude (point - 1 - (16 : Nat))).isSome = true := by
      apply onGrid?_isSome tie finite (by omega) (by omega)
      apply grid_le
      rwa [show point - 1 - (16 : Nat) + (16 : Nat) = point - 1 by omega]
    obtain ⟨steps, few, answer⟩ := @search_eq tie magnitude (point - 1) 17 ⟨16, by decide, answered⟩
    obtain ⟨exponent, reads, digits⟩ := of_onGrid? answer
    generalize search tie magnitude (point - 1) 17 = d at *
    have bound : units magnitude * tenths (point - 1 - steps) / (one * tens (point - 1 - steps)) <
        10 ^ (steps + 1) := by
      rw [Nat.div_lt_iff_lt_mul (Nat.mul_pos one_positive (tens_pos _)), Nat.mul_comm (10 ^ _)]
      apply grid_lt
      rwa [show point - 1 - steps + (steps + 1 : Nat) = point by omega]
    have power : 10 ^ (steps + 1) ≤ 10 ^ 17 := Nat.pow_le_pow_right (by decide) (by omega)
    rw [Digits.readsAs, beq_iff_eq] at reads
    exact readBack_trim ⟨reads, by omega, by omega, by omega⟩ (by omega)

/-- Only zero has no digits, and its exponent is zero. -/
theorem exponent_eq_zero {tie : Tie} {magnitude : Nat} (finite : magnitude < infinity)
    (none : (ofMagnitude tie magnitude).digits = 0) : (ofMagnitude tie magnitude).exponent = 0 := by
  have reads := (readBack_ofMagnitude tie finite).reads
  rw [none, magnitude_zero] at reads
  rw [← reads]
  rfl

end Shortest

end WordMachine
