import Mathlib.Tactic.Ring
import WordMachine.Number.Binary64

/-! # Rounding to the nearest number

Rounding a quotient to a number depends on the quotient alone, and a quotient that is
closer to a number than a part in `2 ^ 54` rounds to that number. The bound holds below
the lower end of a binade too, where the numbers stand twice as dense.
-/

namespace WordMachine

namespace Binary64

/-! ## The nearest whole number -/

/-- The nearest whole number depends on the quotient alone. -/
theorem nearest_mul_right (num den : Nat) {factor : Nat} (positive : 0 < factor) :
    nearest (num * factor) (den * factor) = nearest num den := by
  have less : 2 * (num % den * factor) < den * factor ↔ 2 * (num % den) < den := by
    rw [← Nat.mul_assoc]
    exact Nat.mul_lt_mul_right positive
  have half : 2 * (num % den * factor) = den * factor ↔ 2 * (num % den) = den := by
    rw [← Nat.mul_assoc]
    exact Nat.mul_left_inj positive.ne'
  simp only [nearest, Nat.mul_div_mul_right _ _ positive, Nat.mul_mod_mul_right, less, half]

/-- A whole number that is closer than a half is the nearest. -/
theorem nearest_eq {num den k : Nat} (below : 2 * (k * den) < 2 * num + den)
    (above : 2 * num < 2 * (k * den) + den) : nearest num den = k := by
  have positive : 0 < den := by omega
  have rest := Nat.mod_lt num positive
  have parts := Nat.div_add_mod' num den
  have low : num / den ≤ k := by
    rw [← Nat.lt_succ_iff, Nat.div_lt_iff_lt_mul positive, Nat.succ_mul]
    omega
  have high : k < num / den + 2 := by
    have scaled : k * den < (num / den + 2) * den := by
      rw [Nat.add_mul]
      omega
    exact Nat.lt_of_mul_lt_mul_right scaled
  unfold nearest
  dsimp only
  rcases Nat.eq_or_lt_of_le low with same | next
  · rw [← same] at below above
    rw [if_pos (.inl (by omega)), same]
  · have same : k = num / den + 1 := by omega
    rw [same, Nat.add_mul] at below above
    rw [if_neg (by omega), same]

/-! ## The nearest number -/

theorem ofUnits_mul_right (num den : Nat) {factor : Nat} (positive : 0 < factor) :
    ofUnits (num * factor) (den * factor) = ofUnits num den := by
  have scaled (power : Nat) : den * factor * power = den * power * factor := by ring
  simp only [ofUnits, Nat.mul_div_mul_right _ _ positive, scaled, nearest_mul_right _ _ positive]

/-- Equal quotients have one nearest number. -/
theorem ofUnits_congr {num den num' den' : Nat} (positive : 0 < den) (positive' : 0 < den')
    (same : num * den' = num' * den) : ofUnits num den = ofUnits num' den' := by
  rw [← ofUnits_mul_right num den positive', same, Nat.mul_comm den,
    ofUnits_mul_right num' den' positive]

/-- The nearest number, if the spacing at a quotient is known and a multiple of it is
closer than a half. -/
theorem ofUnits_eq {num den spacing k : Nat} (scale : (num / den).log2 - 52 = spacing)
    (below : 2 * (k * (den * 2 ^ spacing)) < 2 * num + den * 2 ^ spacing)
    (above : 2 * num < 2 * (k * (den * 2 ^ spacing)) + den * 2 ^ spacing)
    (finite : spacing * binade + k < infinity) :
    ofUnits num den = spacing * binade + k := by
  unfold ofUnits
  simp only [scale, Nat.pow_eq, nearest_eq below above]
  exact Nat.min_eq_right finite.le

theorem log2_div {num den exponent : Nat} (low : 2 ^ exponent * den ≤ num)
    (high : num < 2 ^ (exponent + 1) * den) : (num / den).log2 = exponent := by
  have positive : 0 < den := by
    rcases Nat.eq_zero_or_pos den with rfl | positive
    · omega
    · exact positive
  have below : 2 ^ exponent ≤ num / den := (Nat.le_div_iff_mul_le positive).mpr low
  have above : num / den < 2 ^ (exponent + 1) := (Nat.div_lt_iff_lt_mul positive).mpr high
  have nonzero : num / den ≠ 0 := (Nat.lt_of_lt_of_le (Nat.two_pow_pos _) below).ne'
  have least := (Nat.le_log2 nonzero).mpr below
  have most := (Nat.log2_lt nonzero).mpr above
  omega

/-- The spacing of the numbers at a quotient in a binade. -/
theorem log2_div_sub_of_within {num den spacing : Nat}
    (low : binade * (den * 2 ^ spacing) ≤ num) (high : num < 2 * (binade * (den * 2 ^ spacing))) :
    (num / den).log2 - 52 = spacing := by
  have start : 2 ^ (52 + spacing) * den = binade * (den * 2 ^ spacing) := by
    rw [pow_add, show binade = 2 ^ 52 from rfl]
    ring
  have finish : 2 ^ (52 + spacing + 1) * den = 2 * (binade * (den * 2 ^ spacing)) := by
    rw [← start]
    ring
  rw [@log2_div num den (52 + spacing) (by omega) (by omega)]
  omega

/-- A quotient of fewer than `2 ^ 53` units is rounded to whole units. -/
theorem log2_div_sub {num den : Nat} (high : num < 2 ^ 53 * den) : (num / den).log2 - 52 = 0 := by
  have positive : 0 < den := by omega
  have above : num / den < 2 ^ 53 := (Nat.div_lt_iff_lt_mul positive).mpr high
  rcases Nat.eq_zero_or_pos (num / den) with zero | nonzero
  · rw [zero]
    rfl
  · have most := (Nat.log2_lt nonzero.ne').mpr above
    omega

/-- A quotient is close to a number of units: it differs by less than a part in `2 ^ 54`. -/
structure Close (num den units : Nat) : Prop where
  below : units * den * (2 ^ 54 - 1) < num * 2 ^ 54
  above : num * 2 ^ 54 < units * den * (2 ^ 54 + 1)

/-- A quotient that is close to a number of a binade, and not below the binade, rounds to
the number. -/
theorem ofUnits_of_close_within {num den spacing rest : Nat} (small : rest < binade)
    (within : binade * (den * 2 ^ spacing) ≤ num)
    (close : Close num den ((binade + rest) * 2 ^ spacing))
    (finite : (spacing + 1) * binade + rest < infinity) :
    ofUnits num den = (spacing + 1) * binade + rest := by
  obtain ⟨below, above⟩ := close
  have scaled : (binade + rest) * 2 ^ spacing * den =
      binade * (den * 2 ^ spacing) + rest * (den * 2 ^ spacing) := by ring
  have bound : rest * (den * 2 ^ spacing) ≤ (binade - 1) * (den * 2 ^ spacing) :=
    Nat.mul_le_mul_right _ (by omega)
  have number : (spacing + 1) * binade + rest = spacing * binade + (binade + rest) := by ring
  rw [scaled] at below above
  have scale : (num / den).log2 - 52 = spacing :=
    log2_div_sub_of_within within (by unfold binade at *; omega)
  rw [number] at finite ⊢
  unfold binade at *
  refine ofUnits_eq scale ?_ ?_ finite
  · rw [Nat.add_mul]
    omega
  · rw [Nat.add_mul]
    omega

/-- A quotient that is close to the first number of a binade, and below the binade, rounds
to the number: it is twice the first number of the denser binade before it. -/
theorem ofUnits_of_close_before {num den spacing : Nat}
    (before : num < binade * (den * 2 ^ spacing)) (close : Close num den (binade * 2 ^ spacing))
    (finite : (spacing + 1) * binade < infinity) :
    ofUnits num den = (spacing + 1) * binade := by
  obtain ⟨below, above⟩ := close
  have scaled : binade * 2 ^ spacing * den = binade * (den * 2 ^ spacing) := by ring
  rw [scaled] at below above
  cases spacing with
  | zero =>
      have number : (0 + 1) * binade = 0 * binade + binade := by ring
      rw [number] at finite ⊢
      simp only [Nat.pow_zero, Nat.mul_one] at before below above
      unfold binade at *
      refine ofUnits_eq (log2_div_sub (by omega)) ?_ ?_ finite
      · rw [Nat.pow_zero, Nat.mul_one]
        omega
      · rw [Nat.pow_zero, Nat.mul_one]
        omega
  | succ spacing =>
      have number : (spacing + 1 + 1) * binade = spacing * binade + 2 * binade := by ring
      have double : den * 2 ^ (spacing + 1) = 2 * (den * 2 ^ spacing) := by ring
      rw [double] at before below above
      have scale : (num / den).log2 - 52 = spacing :=
        log2_div_sub_of_within (by unfold binade at *; omega) (by unfold binade at *; omega)
      rw [number] at finite ⊢
      unfold binade at *
      exact ofUnits_eq scale (by omega) (by omega) finite

/-- A quotient that is close to the number of a magnitude rounds to it. -/
theorem ofUnits_of_close {num den magnitude : Nat} (finite : magnitude < infinity)
    (close : Close num den (units magnitude)) : ofUnits num den = magnitude := by
  unfold units at close
  by_cases low : magnitude < binade
  · rw [if_pos low] at close
    obtain ⟨below, above⟩ := close
    unfold binade at low
    -- Among the whole numbers of units, where the spacing is one.
    have bound : magnitude * den ≤ (0x10000000000000 - 1) * den := Nat.mul_le_mul_right _ (by omega)
    have rounded := @ofUnits_eq num den 0 magnitude (log2_div_sub (by omega))
    simp only [Nat.pow_zero, Nat.mul_one, Nat.zero_mul, Nat.zero_add] at rounded
    exact rounded (by omega) (by omega) finite
  · rw [if_neg low] at close
    have positive : 0 < magnitude / binade := Nat.div_pos (Nat.le_of_not_lt low) (by decide)
    have number : (magnitude / binade - 1 + 1) * binade + magnitude % binade = magnitude := by
      rw [Nat.sub_add_cancel positive]
      exact Nat.div_add_mod' magnitude binade
    have small : magnitude % binade < binade := Nat.mod_lt _ (by decide)
    rw [← number] at finite
    generalize magnitude / binade - 1 = spacing at *
    generalize magnitude % binade = rest at *
    rw [Nat.pow_eq] at close
    rw [← number]
    by_cases within : binade * (den * 2 ^ spacing) ≤ num
    · exact ofUnits_of_close_within small within close finite
    · -- Only the first number of a binade is close to a quotient below it.
      have first : rest = 0 := by
        by_contra later
        have below := close.below
        have scaled : (binade + rest) * 2 ^ spacing * den =
            binade * (den * 2 ^ spacing) + rest * (den * 2 ^ spacing) := by ring
        have bound : 1 * (den * 2 ^ spacing) ≤ rest * (den * 2 ^ spacing) :=
          Nat.mul_le_mul_right _ (by omega)
        rw [scaled] at below
        unfold binade at *
        omega
      subst first
      rw [Nat.add_zero] at close finite ⊢
      exact ofUnits_of_close_before (Nat.lt_of_not_le within) close finite

end Binary64

end WordMachine
