import WordMachine.Json.Decode
import WordMachine.Number.Layout
import WordMachine.Proofs.Number.Bits
import WordMachine.Proofs.Number.Numerals
import WordMachine.Proofs.Number.Shortest

/-! # Written numbers read back

The text of a number is a numeral of JSON. Its digits and its exponent, however a layout
spreads them around the point, have the decimal value of the shortest digits, so that the
numeral denotes the number that was written.
-/

namespace WordMachine

namespace Numeral

open Json (Digits IsWhole IsFraction IsExponent Unsigned)

/-- A text spells a numeral without a sign: digits around a point, and an exponent. -/
structure Spelled (cs whole fraction : List Char) (exponent : Int) : Prop where
  isWhole : IsWhole whole
  isFraction : ∀ c ∈ fraction, c.isDigit = true
  text : ∃ tail, cs = whole ++ (if fraction = [] then [] else '.' :: fraction) ++ tail ∧
    IsExponent tail ∧ readExponent? tail = some exponent

theorem Spelled.unsigned {cs whole fraction : List Char} {exponent : Int}
    (spelled : Spelled cs whole fraction exponent) : Unsigned cs := by
  obtain ⟨isWhole, isFraction, tail, rfl, isExponent, _⟩ := spelled
  refine ⟨whole, _, tail, rfl, isWhole, ?_, isExponent⟩
  by_cases none : fraction = []
  · exact .inl (if_pos none)
  · exact .inr ⟨fraction, if_neg none, none, isFraction⟩

/-- A spelled numeral, with or without a minus, is read as its parts. -/
theorem Spelled.read? {cs whole fraction : List Char} {exponent : Int}
    (spelled : Spelled cs whole fraction exponent) (negative : Bool) :
    Numeral.read? ((if negative then ['-'] else []) ++ cs) =
      some { negative, whole, fraction, exponent } := by
  obtain ⟨isWhole, isFraction, tail, rfl, _, read⟩ := spelled
  have digits := isWhole.digits
  apply Written.read?
  refine ⟨⟨_, _, tail, congrArg _ (List.append_assoc _ _ _), ?_, ?_,
    exponentText_of_readExponent? read⟩, digits.digits, by simp [digits.nonempty]⟩
  · cases negative with
    | true => exact .minus
    | false => exact .none
  · by_cases none : fraction = []
    · rw [if_pos none, none]
      exact .none
    · rw [if_neg none]
      exact .point isFraction

/-- A numeral with few digits is not clipped. -/
theorem clipped_eq_value {limit : Nat} {n : Numeral}
    (few : n.whole.length + n.fraction.length ≤ limit) : n.clipped limit = n.value := by
  have bare : n.bareFraction.length ≤ n.fraction.length := by
    have dropped := (List.dropWhile_suffix (l := n.fraction.reverse) (· = '0')).length_le
    rw [List.length_reverse] at dropped
    rw [bareFraction, List.length_reverse]
    exact dropped
  have significant : n.significant.length ≤ n.whole.length + n.bareFraction.length := by
    rw [significant, ← List.length_append]
    exact (List.dropWhile_suffix _).length_le
  rw [clipped, if_pos (by omega)]

/-- A numeral has the decimal value of digits with an exponent, but for zeros that end the
digits. -/
structure Denotes (whole fraction : List Char) (exponent : Int) (digits : List Char)
    (scale : Int) : Prop where
  value : ∃ count : Nat, Text.ofDigits (whole ++ fraction) = Text.ofDigits digits * 10 ^ count ∧
    exponent - fraction.length = scale - count ∧ (count = 0 ∨ scale = count - 1)

/-- A numeral with the decimal value of digits that read back as a number denotes it. -/
theorem Denotes.magnitude_eq {whole fraction : List Char} {exponent : Int} {magnitude : Nat}
    {d : Shortest.Digits}
    (denotes : Denotes whole fraction exponent (Text.digitsOf d.digits) d.exponent)
    (back : Shortest.ReadBack magnitude d) :
    Decimal.magnitude (Text.ofDigits (whole ++ fraction)) (exponent - fraction.length) =
      magnitude := by
  obtain ⟨count, digits, scale, bound⟩ := denotes
  obtain ⟨reads, _, low, high⟩ := back
  rw [digits, scale, Text.ofDigits_digitsOf,
    Decimal.magnitude_mul_pow _ _ (by omega) (by omega), Int.sub_add_cancel]
  exact reads

end Numeral

namespace Layout

open Json (Digits IsWhole IsFraction IsExponent Unsigned)
open Numeral (Spelled Denotes)

/-- Digits that do not start with zero. -/
structure Leading (cs : List Char) : Prop where
  all : Digits cs
  head : cs.head? ≠ some '0'

theorem leading_digitsOf {n : Nat} (positive : 0 < n) : Leading (Text.digitsOf n) := by
  obtain ⟨c, rest, same, visible⟩ := Text.head_digitsOf positive
  refine ⟨⟨Text.digitsOf_ne_nil n, fun _ => Text.isDigit_of_mem_digitsOf⟩, ?_⟩
  rw [same]
  simpa using visible

theorem Leading.take {digits : List Char} (leading : Leading digits) {count : Nat}
    (positive : 0 < count) : IsWhole (digits.take count) := by
  obtain ⟨c, rest, rfl, digit⟩ := Json.isDigit_of_head leading.all
  obtain ⟨count, rfl⟩ := Nat.exists_eq_succ_of_ne_zero positive.ne'
  refine .inr ⟨⟨by simp, fun c member => leading.all.digits c (List.mem_of_mem_take member)⟩, ?_⟩
  exact leading.head

theorem isDigit_of_mem_zeros {count : Nat} {c : Char} (member : c ∈ List.replicate count '0') :
    c.isDigit = true := by
  rw [List.eq_of_mem_replicate member]
  rfl

theorem Leading.append_zeros {digits : List Char} (leading : Leading digits) (count : Nat) :
    IsWhole (digits ++ List.replicate count '0') := by
  refine .inr ⟨⟨by simp [leading.all.nonempty], fun c member => ?_⟩, ?_⟩
  · rcases List.mem_append.mp member with digit | zero
    · exact leading.all.digits c digit
    · exact isDigit_of_mem_zeros zero
  · rw [List.head?_append_of_ne_nil _ leading.all.nonempty]
    exact leading.head

/-- The positional text of digits spells them with zeros before or after them. -/
theorem spelled_positionalText (layout : Layout) (kept : layout.keepFraction = true)
    {digits : List Char} (leading : Leading digits) (point : Int) :
    ∃ whole fraction, Spelled (layout.positionalText digits point) whole fraction 0 ∧
      Denotes whole fraction 0 digits (point - digits.length) ∧
      whole.length + fraction.length ≤ digits.length + point.natAbs + 1 := by
  unfold positionalText
  by_cases small : point ≤ 0
  · rw [if_pos small]
    refine ⟨['0'], List.replicate (-point).toNat '0' ++ digits,
      ⟨.inl rfl, ?_, [], ?_, .inl rfl, rfl⟩, ⟨0, ?_, ?_, .inl rfl⟩, ?_⟩
    · intro c member
      rcases List.mem_append.mp member with zero | digit
      · exact isDigit_of_mem_zeros zero
      · exact leading.all.digits c digit
    · rw [if_neg (by simp [leading.all.nonempty]), List.append_nil]
      rfl
    · rw [← List.append_assoc, ← List.replicate_one (a := '0'), ← List.replicate_add,
        Text.ofDigits_replicate_append, pow_zero, Nat.mul_one]
    · rw [List.length_append, List.length_replicate]
      omega
    · rw [List.length_append, List.length_replicate, List.length_singleton]
      omega
  · rw [if_neg small]
    by_cases inside : point < digits.length
    · rw [if_pos inside]
      have dropped : digits.drop point.toNat ≠ [] := by
        rw [Ne, List.drop_eq_nil_iff]
        omega
      refine ⟨digits.take point.toNat, digits.drop point.toNat,
        ⟨leading.take (by omega), ?_, [], ?_, .inl rfl, rfl⟩, ⟨0, ?_, ?_, .inl rfl⟩, ?_⟩
      · exact fun c member => leading.all.digits c (List.mem_of_mem_drop member)
      · rw [if_neg dropped, List.append_nil]
      · rw [List.take_append_drop, pow_zero, Nat.mul_one]
      · rw [List.length_drop]
        omega
      · rw [List.length_take, List.length_drop]
        omega
    · rw [if_neg inside, kept]
      refine ⟨digits ++ List.replicate (point.toNat - digits.length) '0', ['0'],
        ⟨leading.append_zeros _, ?_, [], ?_, .inl rfl, rfl⟩,
        ⟨point.toNat - digits.length + 1, ?_, ?_, .inr ?_⟩, ?_⟩
      · intro c member
        rw [List.mem_singleton.mp member]
        rfl
      · simp
      · rw [List.append_assoc, ← List.replicate_one (a := '0'), ← List.replicate_add,
          Text.ofDigits_append_replicate]
      · rw [List.length_singleton]
        omega
      · omega
      · rw [List.length_append, List.length_replicate, List.length_singleton]
        omega

theorem readExponent?_digitsOf {n : Nat} {sign : List Char} {negative : Bool}
    (signed : Numeral.SignText sign negative) :
    Numeral.readExponent? ('e' :: (sign ++ Text.digitsOf n)) =
      some (if negative then -(n : Int) else n) := by
  have digits : Digits (Text.digitsOf n) :=
    ⟨Text.digitsOf_ne_nil n, fun _ => Text.isDigit_of_mem_digitsOf⟩
  have written := Numeral.ExponentText.marked (.inl rfl) signed digits
  rw [Text.ofDigits_digitsOf] at written
  exact Numeral.readExponent?_of_exponentText written

/-- The text of digits with an exponent spells them with the point after the first. -/
theorem spelled_exponentText (layout : Layout) {digits : List Char} (leading : Leading digits)
    (point : Int) :
    Spelled (layout.exponentText digits point) (digits.take 1) (digits.drop 1) (point - 1) ∧
      Denotes (digits.take 1) (digits.drop 1) (point - 1) digits (point - digits.length) := by
  have some_digits : 0 < digits.length := List.length_pos_iff.mpr leading.all.nonempty
  constructor
  · refine ⟨leading.take (by decide),
      fun c member => leading.all.digits c (List.mem_of_mem_drop member), _, rfl, ?_, ?_⟩
    · refine .inr ⟨'e', _, _, rfl, .inl rfl, ?_, Text.digitsOf_ne_nil _,
        fun _ => Text.isDigit_of_mem_digitsOf⟩
      split
      · exact .inr (.inr rfl)
      · split
        · exact .inr (.inl rfl)
        · exact .inl rfl
    · by_cases negative : point - 1 < 0
      · rw [if_pos negative, readExponent?_digitsOf .minus]
        simp only [↓reduceIte, Option.some.injEq]
        omega
      · rw [if_neg negative]
        have unsigned : Numeral.SignText (if layout.plusExponent then ['+'] else []) false := by
          split
          · exact .plus
          · exact .none
        rw [readExponent?_digitsOf unsigned]
        simp only [Bool.false_eq_true, ↓reduceIte, Option.some.injEq]
        omega
  · refine ⟨0, ?_, ?_, .inl rfl⟩
    · rw [List.take_append_drop, pow_zero, Nat.mul_one]
    · rw [List.length_drop]
      omega

/-- The stored text of the digits of a number spells a numeral of their value. -/
theorem spelled_stored {d : Shortest.Digits} (positive : 0 < d.digits) :
    ∃ whole fraction exponent, Spelled (stored.digitsText d) whole fraction exponent ∧
      Denotes whole fraction exponent (Text.digitsOf d.digits) d.exponent ∧
      whole.length + fraction.length ≤ (Text.digitsOf d.digits).length + 17 := by
  have leading := leading_digitsOf positive
  have scale : ((Text.digitsOf d.digits).length + d.exponent : Int) -
      (Text.digitsOf d.digits).length = d.exponent := by omega
  unfold digitsText stored
  dsimp only
  split
  · next range =>
      obtain ⟨whole, fraction, spelled, denotes, few⟩ := spelled_positionalText stored rfl leading
        ((Text.digitsOf d.digits).length + d.exponent)
      rw [scale] at denotes
      exact ⟨whole, fraction, 0, spelled, denotes, by omega⟩
  · obtain ⟨spelled, denotes⟩ := spelled_exponentText stored leading
      ((Text.digitsOf d.digits).length + d.exponent)
    rw [scale] at denotes
    refine ⟨_, _, _, spelled, denotes, ?_⟩
    rw [List.length_take, List.length_drop]
    omega

/-- The stored text of digits with few places is a numeral that is not clipped and denotes
the number nearest to their value. -/
theorem exists_numeral_stored {magnitude : Nat} {d : Shortest.Digits} (negative : Bool)
    (back : Shortest.ReadBack magnitude d) (zero : d.digits = 0 → d.exponent = 0) :
    ∃ n : Numeral,
      Numeral.read? ((if negative then ['-'] else []) ++ stored.digitsText d) = some n ∧
        Unsigned (stored.digitsText d) ∧ n.clipped Json.maximalDigits = n.value ∧
        n.negative = negative ∧ Decimal.magnitude n.value.digits n.value.exponent = magnitude := by
  by_cases positive : 0 < d.digits
  · obtain ⟨whole, fraction, exponent, spelled, denotes, short⟩ := spelled_stored positive
    have few := back.few
    have length : (Text.digitsOf d.digits).length ≤ 18 :=
      (Text.length_digitsOf_le_iff (by decide)).mpr (by omega)
    refine ⟨_, spelled.read? negative, spelled.unsigned, Numeral.clipped_eq_value ?_, rfl,
      denotes.magnitude_eq back⟩
    unfold Json.maximalDigits
    dsimp only
    omega
  · have none : d.digits = 0 := by omega
    have same : d = ⟨0, 0⟩ := by
      cases d
      simp_all
    subst same
    rw [show magnitude = 0 from back.reads.symm]
    have spelled : Spelled (stored.digitsText ⟨0, 0⟩) ['0'] ['0'] 0 :=
      ⟨.inl rfl, by simp, [], rfl, .inl rfl, rfl⟩
    exact ⟨_, spelled.read? negative, spelled.unsigned, rfl, rfl, rfl⟩

/-- The stored text of a finite number is a number of JSON that is read as it. -/
theorem float?_stored {x : Float} (finite : Binary64.isFinite x = true) :
    Json.NumberText (stored.finiteText x) ∧
      Json.float? (.number (stored.finiteText x)) = some x := by
  have below : Binary64.magnitude x < Binary64.infinity := of_decide_eq_true finite
  obtain ⟨n, read, unsigned, whole, sign, nearest⟩ := exists_numeral_stored
    (Binary64.isNegative x) (Shortest.readBack_ofMagnitude stored.tie below)
    (Shortest.exponent_eq_zero below)
  constructor
  · unfold finiteText
    cases Binary64.isNegative x with
    | true => exact .negative unsigned
    | false => exact .unsigned unsigned
  · have number : n.value.toFloat = x := by
      rw [Decimal.toFloat, nearest, show n.value.negative = n.negative from rfl, sign,
        Binary64.ofMagnitude_magnitude]
    rw [finiteText, Json.float?, read]
    simp only [Option.map_some, Option.bind_eq_bind, Option.bind_some, whole, nearest, below, guard,
      ↓reduceIte, Option.pure_def, number]

/-! ## Numbers on the console -/

/-- Every layout sets a point among the digits, or before them, in the same way. -/
theorem positionalText_eq_of_lt (layout other : Layout) {digits : List Char} {point : Int}
    (inside : point < digits.length) :
    layout.positionalText digits point = other.positionalText digits point := by
  simp only [positionalText, if_pos inside]

/-- A whole number on the console has no point, only the zeros that its digits lack. -/
theorem console_positionalText {digits : List Char} (nonempty : digits ≠ []) (zeros : Nat) :
    console.positionalText digits (digits.length + zeros) =
      digits ++ List.replicate zeros '0' := by
  have some_digits : 0 < digits.length := List.length_pos_iff.mpr nonempty
  have count : ((digits.length + zeros : Int)).toNat - digits.length = zeros := by omega
  rw [positionalText, if_neg (by omega), if_neg (by omega), count]
  exact List.append_nil _

/-- The digits of a number on the console spell a numeral that denotes the number. -/
theorem spelled_console {magnitude : Nat} {d : Shortest.Digits}
    (back : Shortest.ReadBack magnitude d) (positive : 0 < d.digits) :
    ∃ whole fraction, Spelled (console.digitsText d) whole fraction 0 ∧
      Decimal.magnitude (Text.ofDigits (whole ++ fraction)) (0 - fraction.length) = magnitude := by
  have leading := leading_digitsOf positive
  unfold digitsText console
  dsimp only
  by_cases fraction : d.exponent < 0
  · obtain ⟨whole, fraction, spelled, denotes, _⟩ := spelled_positionalText stored rfl leading
      ((Text.digitsOf d.digits).length + d.exponent)
    rw [show ((Text.digitsOf d.digits).length + d.exponent : Int) -
      (Text.digitsOf d.digits).length = d.exponent by omega] at denotes
    refine ⟨whole, fraction, ?_, denotes.magnitude_eq back⟩
    rwa [positionalText_eq_of_lt _ stored (by omega)]
  · obtain ⟨reads, _, _, high⟩ := back
    obtain ⟨zeros, scale⟩ := Int.eq_ofNat_of_zero_le (Int.not_lt.mp fraction)
    rw [scale] at high reads ⊢
    refine ⟨Text.digitsOf d.digits ++ List.replicate zeros '0', [],
      ⟨leading.append_zeros zeros, nofun, [], ?_, .inl rfl, rfl⟩, ?_⟩
    · rw [if_pos rfl, List.append_nil, List.append_nil]
      exact console_positionalText leading.all.nonempty zeros
    · rw [List.append_nil, Text.ofDigits_append_replicate, Text.ofDigits_digitsOf,
        List.length_nil, Decimal.magnitude_mul_pow _ _ (by decide) (by omega)]
      simpa using reads

/-- The text of a finite number other than zero on the console is read as the number. -/
theorem exists_decimal_console {x : Float} (finite : Binary64.isFinite x = true)
    (nonzero : Binary64.magnitude x ≠ 0) :
    ∃ decimal, Decimal.read? (console.finiteText x) = some decimal ∧ decimal.toFloat = x := by
  have back := Shortest.readBack_ofMagnitude console.tie (of_decide_eq_true finite)
  have positive : 0 < (Shortest.ofMagnitude console.tie (Binary64.magnitude x)).digits := by
    apply Nat.pos_of_ne_zero
    intro none
    have reads := back.reads
    rw [none, Decimal.magnitude_zero] at reads
    exact nonzero reads.symm
  obtain ⟨whole, fraction, spelled, denotes⟩ := spelled_console back positive
  refine ⟨_, by rw [Decimal.read?, finiteText, spelled.read?, Option.map_some], ?_⟩
  rw [Decimal.toFloat, Numeral.value]
  dsimp only
  rw [denotes, Binary64.ofMagnitude_magnitude]

end Layout

end WordMachine
