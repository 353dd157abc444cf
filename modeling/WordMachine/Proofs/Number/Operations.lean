import WordMachine.Proofs.Number.Whole

/-! # Remainders and the smaller of two numbers

What the operations on numbers give that the machine computes from bits. A remainder is exact: it
is the remainder of the numbers of units and has the sign of the dividend. The smaller of two
numbers is one of them and not above the other, and a number is preferred to a NaN.
-/

namespace WordMachine

namespace Binary64

open Float.Model Float.Model.UnpackedFloat

/-! ## Remainders -/

/-- A number is the remainder of a division that rounds toward zero. There is none of what is not
finite, or by zero or a NaN, and division by an infinity leaves the dividend. -/
structure IsRemainder (a b r : Float) : Prop where
  undefined : isFinite a = false ∨ isNaN b = true ∨ magnitude b = 0 → isNaN r = true
  whole : isFinite a = true → magnitude b = infinity → r = a
  exact : isFinite a = true → isFinite b = true → magnitude b ≠ 0 →
    isFinite r = true ∧ isNegative r = isNegative a ∧
      units (magnitude r) = units (magnitude a) % units (magnitude b)

/-- Every number of units below `2 ^ 53` is a number in the spacing of each binade, by induction on
the spacing. -/
theorem exists_units_eq {count spacing : Nat} (few : count < 2 ^ 53) (within : spacing ≤ 2045) :
    ∃ magnitude, magnitude < infinity ∧ units magnitude = count * 2 ^ spacing := by
  induction spacing generalizing count with
  | zero =>
      refine ⟨count, Nat.lt_trans few (by decide), ?_⟩
      unfold units
      split
      · rw [pow_zero, Nat.mul_one]
      · next large =>
          unfold binade at *
          have exponent : count / 0x10000000000000 = 1 := by omega
          rw [exponent, pow_zero]
          change (_ + count % 0x10000000000000) * 1 = _
          omega
  | succ spacing ih =>
      by_cases small : count < binade
      · -- Twice as many units of the denser binade before.
        have twice : 2 * count < 2 ^ 53 := by
          unfold binade at small
          omega
        obtain ⟨magnitude, finite, same⟩ := ih twice (Nat.le_of_succ_le within)
        refine ⟨magnitude, finite, ?_⟩
        rw [same]
        ring
      · have rest : count - binade < binade := by
          unfold binade at *
          omega
        have exponent : ((spacing + 2) * binade + (count - binade)) / binade = spacing + 2 := by
          rw [Nat.mul_comm, Nat.mul_add_div (by decide), Nat.div_eq_of_lt rest, Nat.add_zero]
        have mantissa : ((spacing + 2) * binade + (count - binade)) % binade = count - binade := by
          rw [Nat.mul_comm, Nat.mul_add_mod, Nat.mod_eq_of_lt rest]
        refine ⟨(spacing + 2) * binade + (count - binade), ?_, ?_⟩
        · unfold binade infinity at *
          omega
        · have normal : ¬(spacing + 2) * binade + (count - binade) < binade := by
            unfold binade at *
            omega
          rw [units, if_neg normal, exponent, mantissa,
            Nat.add_sub_cancel' (Nat.le_of_not_lt small)]
          rfl

/-- A finite number is fewer than `2 ^ 53` units in the spacing of its binade. -/
theorem exists_count_spacing {magnitude : Nat} (finite : magnitude < infinity) :
    ∃ count spacing, count < 2 ^ 53 ∧ spacing ≤ 2045 ∧ units magnitude = count * 2 ^ spacing := by
  unfold units
  split
  · next small =>
      refine ⟨magnitude, 0, Nat.lt_trans small (by decide), Nat.zero_le _, ?_⟩
      rw [pow_zero, Nat.mul_one]
  · refine ⟨binade + magnitude % binade, magnitude / binade - 1, ?_, ?_, rfl⟩
    · unfold binade
      omega
    · unfold binade infinity at *
      omega

/-- The remainder of two finite numbers is a number: it is a multiple of the finer of their
spacings and not above the number that has it. -/
theorem exists_units_mod {a b : Nat} (finite_a : a < infinity) (finite_b : b < infinity)
    (nonzero : 0 < units b) :
    ∃ magnitude, magnitude < infinity ∧ units magnitude = units a % units b := by
  obtain ⟨count_a, spacing_a, few_a, within_a, units_a⟩ := exists_count_spacing finite_a
  obtain ⟨count_b, spacing_b, few_b, within_b, units_b⟩ := exists_count_spacing finite_b
  rcases Nat.le_total spacing_a spacing_b with finer | finer
  · obtain ⟨shift, rfl⟩ := Nat.exists_eq_add_of_le finer
    have split : units b = count_b * 2 ^ shift * 2 ^ spacing_a := by
      rw [units_b, pow_add]
      ring
    rw [units_a, split, Nat.mul_mod_mul_right]
    exact exists_units_eq (Nat.lt_of_le_of_lt (Nat.mod_le _ _) few_a) within_a
  · obtain ⟨shift, rfl⟩ := Nat.exists_eq_add_of_le finer
    have split : units a = count_a * 2 ^ shift * 2 ^ spacing_b := by
      rw [units_a, pow_add]
      ring
    rw [units_b] at nonzero
    rw [units_b, split, Nat.mul_mod_mul_right]
    have positive : 0 < count_b := Nat.pos_of_mul_pos_right nonzero
    exact exists_units_eq (Nat.lt_trans (Nat.mod_lt _ positive) few_b) within_b

/-- A whole number of units that is a number is rounded to it. -/
theorem ofUnits_units {magnitude : Nat} (finite : magnitude < infinity) :
    ofUnits (units magnitude) 1 = magnitude := by
  rcases Nat.eq_zero_or_pos magnitude with rfl | positive
  · decide
  · have some_units := units_pos positive
    apply ofUnits_of_close finite
    constructor <;> omega

/-- **Remainders are exact.** -/
theorem isRemainder_remainder (a b : Float) : IsRemainder a b (remainder a b) where
  undefined none := by
    have condition : (!isFinite a || isNaN b || magnitude b == 0) = true := by
      rcases none with infinite | undefined | zero
      · simp [infinite]
      · simp [undefined]
      · simp [zero]
    rw [remainder, if_pos condition]
    decide +kernel
  whole finite infinite := by
    have defined : isNaN b = false := by simp [isNaN, infinite]
    have unbounded : isFinite b = false := by simp [isFinite, infinite]
    have nonzero : (magnitude b == 0) = false := by simp [infinite, infinity]
    simp [remainder, finite, defined, unbounded, nonzero]
  exact finite_a finite_b nonzero := by
    have below_a := of_decide_eq_true finite_a
    have below_b := of_decide_eq_true finite_b
    have defined : isNaN b = false := decide_eq_false (Nat.not_lt.mpr below_b.le)
    have some_units := units_pos (Nat.pos_of_ne_zero nonzero)
    obtain ⟨m, finite, same⟩ := exists_units_mod below_a below_b some_units
    have value : remainder a b = ofMagnitude (isNegative a) m := by
      rw [remainder, finite_a, finite_b, defined, beq_eq_false_iff_ne.mpr nonzero]
      simp only [Bool.not_true, Bool.or_self, Bool.false_eq_true, ↓reduceIte]
      rw [← same, ofUnits_units finite]
    have kept := magnitude_ofMagnitude (isNegative a) finite.le
    rw [value, kept]
    refine ⟨?_, ?_, same⟩
    · rw [isFinite, kept]
      exact decide_eq_true finite
    · rw [isNegative, toBits_ofMagnitude _ finite.le]
      unfold signBit infinity at *
      cases isNegative a with
      | false =>
          rw [if_neg Bool.false_ne_true]
          exact decide_eq_false (by omega)
      | true =>
          rw [if_pos rfl]
          exact decide_eq_true (Nat.le_add_right _ _)

/-! ## The better of two numbers -/

/-- The better of two numbers in an order, where a NaN is worse than a number. -/
structure IsBest (order : Float → Float → Prop) (a b r : Float) : Prop where
  either : r = a ∨ r = b
  second : isNaN a = true → r = b
  first : isNaN b = true → r = a
  best : isNaN a = false → isNaN b = false → order r a ∧ order r b

/-- Comparing two pairs the other way swaps their order. -/
theorem swap_then_compare (e e' : Int) (n n' : Nat) :
    ((compare e e').then (compare n n')).swap = (compare e' e).then (compare n' n) := by
  have exponents : compare e' e = (compare e e').swap := Std.OrientedCmp.eq_swap
  have mantissas : compare n' n = (compare n n').swap := Std.OrientedCmp.eq_swap
  rw [Ordering.swap_then, exponents, mantissas]

/-- Comparing the other way swaps the order. -/
theorem compare_swap (a b : UnpackedFloat) : b.compare a = (a.compare b).map Ordering.swap := by
  cases a with
  | notANumber => cases b <;> rfl
  | infinity s =>
      cases b with
      | notANumber | zero => cases s <;> rfl
      | infinity t => cases s <;> cases t <;> rfl
      | finite t => cases s <;> cases t <;> rfl
  | zero s =>
      cases b with
      | notANumber | zero => rfl
      | infinity t | finite t => cases t <;> rfl
  | finite s m e =>
      cases b with
      | notANumber => rfl
      | zero => cases s <;> rfl
      | infinity t => cases s <;> cases t <;> rfl
      | finite t m' e' =>
          have swapped := swap_then_compare e e' m m'
          cases s with
          | positive =>
              cases t with
              | positive => exact congrArg some swapped.symm
              | negative => rfl
          | negative =>
              cases t with
              | positive => rfl
              | negative => exact congrArg (fun o => some (Ordering.swap o)) swapped.symm

/-- A number is equal to itself. -/
theorem compare_self {a : UnpackedFloat} (defined : a ≠ .notANumber) : a.compare a = some .eq := by
  cases a with
  | notANumber => exact (defined rfl).elim
  | zero => rfl
  | infinity s => cases s <;> rfl
  | finite s m e =>
      have exponents : compare e e = .eq := Std.ReflCmp.compare_self
      have mantissas : compare m m = .eq := Std.ReflCmp.compare_self
      have same : (compare e e).then (compare m m) = .eq := by
        rw [exponents, mantissas]
        rfl
      cases s with
      | positive => exact congrArg some same
      | negative => exact congrArg (fun o => some (Ordering.swap o)) same

/-- Numbers have an order. -/
theorem exists_compare {a b : UnpackedFloat} (defined_a : a ≠ .notANumber)
    (defined_b : b ≠ .notANumber) : ∃ order, a.compare b = some order := by
  cases a with
  | notANumber => exact (defined_a rfl).elim
  | infinity s =>
      cases b with
      | notANumber => exact (defined_b rfl).elim
      | infinity | zero | finite => cases s <;> exact ⟨_, rfl⟩
  | zero s =>
      cases b with
      | notANumber => exact (defined_b rfl).elim
      | zero => exact ⟨_, rfl⟩
      | infinity t | finite t => cases t <;> exact ⟨_, rfl⟩
  | finite s m e =>
      cases b with
      | notANumber => exact (defined_b rfl).elim
      | zero => cases s <;> exact ⟨_, rfl⟩
      | infinity t | finite t => cases s <;> cases t <;> exact ⟨_, rfl⟩

/-- What is not a NaN is not unpacked as one. -/
theorem unpack_ne_notANumber {x : Float} (defined : isNaN x = false) :
    x.toModel.unpack ≠ .notANumber := by
  have below := of_decide_eq_false defined
  change UnpackedFloat.unpack .binary64 x.toBits.toBitVec ≠ .notANumber
  unfold UnpackedFloat.unpack
  dsimp only
  split
  · next exponent =>
      have large := congrArg BitVec.toNat exponent
      rw [unpackExponent_eq] at large
      change magnitude x / binade = 2047 at large
      have mantissa : @unpackMantissa .binary64 x.toBits.toBitVec = 0#_ := by
        apply BitVec.eq_of_toNat_eq
        rw [unpackMantissa_eq]
        change magnitude x % binade = 0
        unfold binade infinity at *
        omega
      rw [if_pos mantissa]
      exact nofun
  · split
    · split <;> exact nofun
    · exact nofun

theorem lt_iff_compare {a b : Float} :
    a < b ↔ a.toModel.unpack.compare b.toModel.unpack = some .lt :=
  decide_eq_true_iff.trans beq_iff_eq

theorem le_iff_compare {a b : Float} :
    a ≤ b ↔ (a.toModel.unpack.compare b.toModel.unpack).any (·.isLE) = true :=
  decide_eq_true_iff

theorem le_of_lt {a b : Float} (less : a < b) : a ≤ b := by
  rw [le_iff_compare, lt_iff_compare.mp less]
  rfl

theorem le_refl {a : Float} (defined : isNaN a = false) : a ≤ a := by
  rw [le_iff_compare, compare_self (unpack_ne_notANumber defined)]
  rfl

theorem le_of_not_lt {a b : Float} (defined_a : isNaN a = false) (defined_b : isNaN b = false)
    (not_less : ¬a < b) : b ≤ a := by
  obtain ⟨order, compared⟩ :=
    exists_compare (unpack_ne_notANumber defined_a) (unpack_ne_notANumber defined_b)
  rw [lt_iff_compare, compared] at not_less
  rw [le_iff_compare, compare_swap a.toModel.unpack, compared]
  cases order with
  | lt => exact (not_less rfl).elim
  | eq | gt => rfl

/-- There is one NaN, so that two of them are one number. -/
theorem eq_of_isNaN {a b : Float} (undefined_a : isNaN a = true) (undefined_b : isNaN b = true) :
    a = b :=
  (eq_nan_of_isNaN undefined_a).trans (eq_nan_of_isNaN undefined_b).symm

/-- Choosing between two numbers by a test gives the better one if the test tells which one is
better. -/
theorem isBest_ite {order : Float → Float → Prop} {a b : Float} {test : Prop} [Decidable test]
    (refl : ∀ {x}, isNaN x = false → order x x) (passes : test → order a b)
    (fails : isNaN a = false → isNaN b = false → ¬test → order b a) :
    IsBest order a b (if isNaN a then b else if isNaN b then a else if test then a else b) := by
  split
  · next undefined => exact ⟨.inr rfl, fun _ => rfl, (eq_of_isNaN · undefined), by simp [undefined]⟩
  · next defined_a =>
      have defined_a := Bool.eq_false_iff.mpr defined_a
      split
      · next undefined => exact ⟨.inl rfl, by simp [defined_a], fun _ => rfl, by simp [undefined]⟩
      · next defined_b =>
          have defined_b := Bool.eq_false_iff.mpr defined_b
          split
          · next holds =>
              refine ⟨.inl rfl, by simp [defined_a], fun _ => rfl, fun _ _ => ?_⟩
              exact ⟨refl defined_a, passes holds⟩
          · next holds_not =>
              refine ⟨.inr rfl, fun _ => rfl, by simp [defined_b], fun _ _ => ?_⟩
              exact ⟨fails defined_a defined_b holds_not, refl defined_b⟩

/-- The smaller of two numbers is one of them and not above either. -/
theorem isBest_minimum (a b : Float) : IsBest (fun x y => x ≤ y) a b (minimum a b) :=
  isBest_ite le_refl le_of_lt le_of_not_lt

/-- The larger of two numbers is one of them and not below either. -/
theorem isBest_maximum (a b : Float) : IsBest (fun x y => y ≤ x) a b (maximum a b) :=
  isBest_ite le_refl le_of_lt fun defined_a defined_b => le_of_not_lt defined_b defined_a

end Binary64

end WordMachine
