import WordMachine.Proofs.Number.Layout
import WordMachine.Proofs.Number.NumeralBytes
import WordMachine.Proofs.Number.Whole
import WordMachine.Token
import WordMachine.Value

/-! # Numbers among tokens

A token is a number exactly if its text is a numeral (`Token.classify_exact`). A general
reader of numbers also takes names of infinity and of the NaN, and tokens with such texts
stay words. To scan the bytes of a text first and to leave its number to that reader comes to the
same (`Token.classifyBytes_eq_classify`). The printed text of a finite number is a numeral that is
read as the number (`Token.classify_display`); only the sign of zero is lost.
-/

namespace WordMachine

namespace Decimal

theorem magnitude_le_infinity (digits : Nat) (exponent : Int) :
    magnitude digits exponent ≤ Binary64.infinity := by
  have rounded (num den : Nat) : Binary64.ofUnits num den ≤ Binary64.infinity :=
    Nat.min_le_left _ _
  unfold magnitude
  split
  · exact Nat.zero_le _
  split
  · exact le_rfl
  split
  · exact Nat.zero_le _
  split
  · exact rounded _ _
  · exact rounded _ _

/-- The number nearest to a decimal value may be infinite, but it is not a NaN. -/
theorem isNaN_toFloat (d : Decimal) : Binary64.isNaN d.toFloat = false := by
  have bound := magnitude_le_infinity d.digits d.exponent
  rw [Binary64.isNaN, toFloat, Binary64.magnitude_ofMagnitude _ bound]
  exact decide_eq_false (Nat.not_lt.mpr bound)

end Decimal

namespace Binary64

open Json (Digits)
open Numeral (SignText ExponentText IsNumeral Written)

/-! ## Texts of numbers -/

/-- The names of infinity, in small letters. -/
def infinityNames : List (List Char) :=
  [['i', 'n', 'f'], ['i', 'n', 'f', 'i', 'n', 'i', 't', 'y']]

/-- The names of the NaN, in small letters. -/
def nanNames : List (List Char) :=
  [['n', 'a', 'n']]

/-- A name of a number that has no digits, in letters of either case. -/
def IsName (cs : List Char) : Prop :=
  cs.map Char.toLower ∈ infinityNames ++ nanNames

/-- The number that a text writes, be it finite or not. -/
def parse? (cs : List Char) : Option Float :=
  let (negative, unsigned) := Numeral.takeSign cs
  if unsigned.map Char.toLower ∈ infinityNames then some (ofMagnitude negative infinity)
  else if unsigned.map Char.toLower ∈ nanNames then some nan
  else (Decimal.read? cs).map Decimal.toFloat

/-- A name of a number after an optional sign. -/
def IsNamed (cs : List Char) : Prop :=
  ∃ sign name negative, cs = sign ++ name ∧ SignText sign negative ∧ IsName name

/-- Digits with an optional point behind or between them, or in front. -/
inductive MantissaText : List Char → Prop where
  | whole {digits : List Char} : Digits digits → MantissaText digits
  | pointAfter {digits fraction : List Char} : Digits digits →
      (∀ c ∈ fraction, c.isDigit = true) → MantissaText (digits ++ '.' :: fraction)
  | pointBefore {digits fraction : List Char} : (∀ c ∈ digits, c.isDigit = true) →
      Digits fraction → MantissaText (digits ++ '.' :: fraction)

/-- A text of a number: after an optional sign a name, or digits and an optional
exponent. -/
inductive FloatText : List Char → Prop where
  | named {cs : List Char} : IsNamed cs → FloatText cs
  | digits {sign mantissa exponent : List Char} {negative : Bool} {value : Int} :
      SignText sign negative → MantissaText mantissa → ExponentText exponent value →
      FloatText (sign ++ (mantissa ++ exponent))

/-- The texts of numbers with digits are the numerals. -/
theorem isNumeral_iff {cs : List Char} :
    IsNumeral cs ↔ ∃ sign mantissa exponent negative value, cs = sign ++ (mantissa ++ exponent) ∧
      SignText sign negative ∧ MantissaText mantissa ∧ ExponentText exponent value := by
  constructor
  · rintro ⟨⟨negative, whole, fraction, value⟩,
      ⟨sign, point, exponent, rfl, signed, pointed, written⟩, all, nonempty⟩
    refine ⟨sign, whole ++ point, exponent, negative, value, ?_, signed, ?_, written⟩
    · rw [List.append_assoc]
    · cases pointed with
      | none =>
          rw [List.append_nil] at nonempty ⊢
          exact .whole ⟨nonempty, all⟩
      | point digits =>
          by_cases none : whole = []
          · rw [none, List.nil_append] at nonempty
            exact .pointBefore all ⟨nonempty, digits⟩
          · exact .pointAfter ⟨none, all⟩ digits
  · rintro ⟨sign, mantissa, exponent, negative, value, rfl, signed, mantissa_text, written⟩
    cases mantissa_text with
    | whole digits =>
        exact ⟨⟨negative, _, [], value⟩, ⟨sign, [], exponent, rfl, signed, .none, written⟩,
          digits.digits, by simpa using digits.nonempty⟩
    | @pointAfter whole fraction digits all =>
        refine ⟨⟨negative, whole, fraction, value⟩,
          ⟨sign, '.' :: fraction, exponent, ?_, signed, .point all, written⟩, digits.digits,
          by simp [digits.nonempty]⟩
        rw [List.append_assoc]
    | @pointBefore whole fraction all digits =>
        refine ⟨⟨negative, whole, fraction, value⟩,
          ⟨sign, '.' :: fraction, exponent, ?_, signed, .point digits.digits, written⟩, all,
          by simp [digits.nonempty]⟩
        rw [List.append_assoc]

theorem toLower_of_isDigit {c : Char} (digit : c.isDigit = true) : c.toLower = c := by
  have below := of_decide_eq_true (Bool.and_eq_true_iff.mp digit).2
  apply dif_neg
  rintro ⟨upper, _⟩
  exact absurd (UInt32.le_trans upper below) (by decide)

/-- A name starts with one of two letters. -/
theorem IsName.head {cs : List Char} (named : IsName cs) :
    ∃ c rest, cs = c :: rest ∧ (c.toLower = 'i' ∨ c.toLower = 'n') := by
  have letters : ∀ name ∈ infinityNames ++ nanNames,
      name.head? = some 'i' ∨ name.head? = some 'n' := by
    simp [infinityNames, nanNames]
  have first := letters _ named
  cases cs with
  | nil => simp at first
  | cons c rest => exact ⟨c, rest, rfl, by simpa using first⟩

theorem IsName.noSign {cs : List Char} (named : IsName cs) : Numeral.NoSign cs := by
  obtain ⟨c, rest, rfl, letter⟩ := named.head
  rintro _ ⟨⟩
  constructor
  · rintro rfl
    exact absurd letter (by decide)
  · rintro rfl
    exact absurd letter (by decide)

theorem IsName.not_startsDigits {cs : List Char} (named : IsName cs) :
    ¬ Numeral.StartsDigits cs := by
  obtain ⟨c, rest, rfl, letter⟩ := named.head
  rintro ⟨_, _, ⟨⟩, digit | rfl⟩
  · rw [toLower_of_isDigit digit] at letter
    rcases letter with rfl | rfl
    · cases digit
    · cases digit
  · exact absurd letter (by decide)

theorem IsNamed.not_isNumeral {cs : List Char} (named : IsNamed cs) : ¬ IsNumeral cs := by
  rintro ⟨n, written⟩
  obtain ⟨sign, name, negative, rfl, signed, named⟩ := named
  have starts := written.startsDigits
  rw [Numeral.takeSign_append signed named.noSign] at starts
  exact named.not_startsDigits starts

/-- A numeral is no name, so it is read by its digits. -/
theorem parse?_of_written {cs : List Char} {n : Numeral} (written : Written cs n) :
    parse? cs = some n.value.toFloat := by
  have nameless : ¬ IsName (Numeral.takeSign cs).2 :=
    fun named => named.not_startsDigits written.startsDigits
  rw [IsName, List.mem_append, not_or] at nameless
  unfold parse?
  dsimp only
  rw [if_neg nameless.1, if_neg nameless.2, Decimal.read?, written.read?, Option.map_some,
    Option.map_some]

/-- The reader of numbers accepts the texts of numbers, and nothing else. -/
theorem isSome_parse?_iff {cs : List Char} : (parse? cs).isSome = true ↔ FloatText cs := by
  constructor
  · intro accepted
    obtain ⟨sign, text, signed⟩ := Numeral.exists_signText cs
    unfold parse? at accepted
    dsimp only at accepted
    split at accepted
    · next infinite =>
        exact .named ⟨sign, _, _, text, signed, List.mem_append_left _ infinite⟩
    split at accepted
    · next undefined =>
        exact .named ⟨sign, _, _, text, signed, List.mem_append_right _ undefined⟩
    · rw [Decimal.read?, Option.isSome_map, Option.isSome_map, Numeral.isSome_read?_iff,
        isNumeral_iff] at accepted
      obtain ⟨sign, mantissa, exponent, negative, value, rfl, signed, digits, written⟩ := accepted
      exact .digits signed digits written
  · intro text
    cases text with
    | named named =>
        obtain ⟨sign, name, negative, rfl, signed, named⟩ := named
        unfold parse?
        rw [Numeral.takeSign_append signed named.noSign]
        dsimp only
        rcases List.mem_append.mp named with infinite | undefined
        · rw [if_pos infinite]
          rfl
        · rw [if_pos undefined]
          split
          · rfl
          · rfl
    | digits signed digits written =>
        obtain ⟨n, numeral⟩ := isNumeral_iff.mpr ⟨_, _, _, _, _, rfl, signed, digits, written⟩
        rw [parse?_of_written numeral]
        rfl

/-- What the reader accepts beside the numerals are the names. -/
theorem isNamed_iff {cs : List Char} :
    IsNamed cs ↔ (parse? cs).isSome = true ∧ ¬ IsNumeral cs := by
  rw [isSome_parse?_iff]
  constructor
  · intro named
    exact ⟨.named named, named.not_isNumeral⟩
  · rintro ⟨text, other⟩
    cases text with
    | named named => exact named
    | digits signed digits written =>
        exact absurd (isNumeral_iff.mpr ⟨_, _, _, _, _, rfl, signed, digits, written⟩) other

end Binary64

namespace Token

open Numeral (IsNumeral)

/-- A token is a number exactly if its text is a numeral. A reader of numbers accepts the text
and gives the number, which is not a NaN. Every other text stays as it is, the name of a
word; the reader would accept it only if it names infinity or the NaN. -/
theorem classify_exact (text : String) :
    ((∃ x, classify text = .number x) ↔ IsNumeral text.toList) ∧
      (IsNumeral text.toList →
        ∃ x, Binary64.parse? text.toList = some x ∧ Binary64.isNaN x = false ∧
          classify text = .number x) ∧
      (¬ IsNumeral text.toList → classify text = .word text) ∧
      (Binary64.IsNamed text.toList ↔
        (Binary64.parse? text.toList).isSome = true ∧ ¬ IsNumeral text.toList) := by
  have numeral : IsNumeral text.toList →
      ∃ x, Binary64.parse? text.toList = some x ∧ Binary64.isNaN x = false ∧
        classify text = .number x := by
    rintro ⟨n, written⟩
    refine ⟨n.value.toFloat, Binary64.parse?_of_written written, Decimal.isNaN_toFloat _, ?_⟩
    rw [classify, Decimal.read?, written.read?]
    rfl
  have other : ¬ IsNumeral text.toList → classify text = .word text := by
    intro other
    rw [← Numeral.isSome_read?_iff, Bool.not_eq_true, Option.isSome_eq_false_iff,
      Option.isNone_iff_eq_none] at other
    rw [classify, Decimal.read?, other]
    rfl
  refine ⟨⟨?_, ?_⟩, numeral, other, Binary64.isNamed_iff⟩
  · rintro ⟨x, number⟩
    by_contra none
    rw [other none] at number
    cases number
  · intro is_numeral
    obtain ⟨x, _, _, number⟩ := numeral is_numeral
    exact ⟨x, number⟩

/-- The meaning of a token, told by its bytes: what the scan of numerals accepts is left to the
reader of numbers, and a text that either of them refuses is the name of a word. -/
def classifyBytes (text : String) : Token :=
  if Numeral.scan text.toByteArray.data.toList then
    match Binary64.parse? text.toList with
    | some x => .number x
    | none => .word text
  else .word text

/-- **The scan of the bytes and the reader of numbers together read the numerals**, and no text that
the scan accepts is refused by the reader. -/
theorem classifyBytes_eq_classify (text : String) : classifyBytes text = classify text := by
  rw [classifyBytes, ← Text.bytes_toList, Numeral.scan_eq_isSome_read?, classify, Decimal.read?]
  cases read : Numeral.read? text.toList with
  | none => rfl
  | some n => rw [Binary64.parse?_of_written (Numeral.written_of_read? read)]; rfl

end Token

/-! ## Printed numbers -/

/-- The text of an integer is its digits after an optional minus. -/
theorem Text.toString_eq (n : Int) :
    toString n = (if n < 0 then "-" else "") ++ natText n.natAbs := by
  rw [Int.toString_eq_repr, Int.repr_eq_if]
  by_cases negative : n < 0
  · rw [if_neg (Int.not_le.mpr negative), if_pos negative, show (-n).toNat = n.natAbs by omega]
    rfl
  · rw [if_pos (Int.not_lt.mp negative), if_neg negative, show n.toNat = n.natAbs by omega,
      String.empty_append]
    rfl

namespace Value

/-- A whole number of few digits is printed as an integer. -/
theorem numberText_of_whole {x : Float} {n : Int} (whole : Binary64.toInt? x = some n)
    (small : n.natAbs < wholeBound) : numberText x = toString n := by
  simp only [numberText, whole, if_pos small]
  exact (Text.toString_eq n).symm

/-- The integer is the one of 64 bits to which the number is cut. -/
theorem numberText_eq_toInt64 {x : Float} {n : Int} (whole : Binary64.toInt? x = some n)
    (small : n.natAbs < wholeBound) : numberText x = toString x.toModel.toInt64 := by
  have least : Int64.minValue.toInt = -9223372036854775808 := by decide
  have greatest : Int64.maxValue.toInt = 9223372036854775807 := by decide
  have kept : x.toModel.toInt64.toInt = n := by
    unfold wholeBound at small
    exact Binary64.toInt_toInt64 whole (by omega) (by omega)
  rw [numberText_of_whole whole small, ← kept]
  rfl

/-- A number that is not printed as an integer is printed by its shortest digits. -/
theorem numberText_of_finite {x : Float} (finite : Binary64.isFinite x = true)
    (other : ∀ n, Binary64.toInt? x = some n → wholeBound ≤ n.natAbs) :
    numberText x = String.ofList (Layout.console.finiteText x) := by
  have text : Layout.console.text x = String.ofList (Layout.console.finiteText x) := if_pos finite
  unfold numberText
  split
  · next n whole => rw [if_neg (Nat.not_lt.mpr (other n whole)), text]
  · exact text

end Value

namespace Decimal

/-- The text of an integer is read by its sign and its digits. -/
theorem read?_toString (n : Int) :
    read? (toString n).toList = some ⟨decide (n < 0), n.natAbs, 0⟩ := by
  have signed : Numeral.SignText (if n < 0 then "-" else "").toList (decide (n < 0)) := by
    by_cases negative : n < 0
    · rw [if_pos negative, decide_eq_true negative]
      exact .minus
    · rw [if_neg negative, decide_eq_false negative]
      exact .none
  have written : Numeral.Written (toString n).toList
      ⟨decide (n < 0), Text.digitsOf n.natAbs, [], 0⟩ := by
    refine ⟨⟨_, [], [], ?_, signed, .none, .none⟩, fun _ => Text.isDigit_of_mem_digitsOf, ?_⟩
    · rw [Text.toString_eq, String.toList_append, Text.natText, String.toList_ofList,
        List.append_nil, List.append_nil]
    · rw [List.append_nil]
      exact Text.digitsOf_ne_nil _
  rw [read?, written.read?, Option.map_some, Numeral.value]
  simp only [List.append_nil, Text.ofDigits_digitsOf, List.length_nil, Nat.cast_zero, sub_zero]

/-- The text of a whole number is read as the number, unless it is zero. -/
theorem toFloat_of_whole {x : Float} {n : Int} (whole : Binary64.toInt? x = some n)
    (nonzero : Binary64.magnitude x ≠ 0) :
    (⟨decide (n < 0), n.natAbs, 0⟩ : Decimal).toFloat = x := by
  obtain ⟨finite, count, signed⟩ := Binary64.of_toInt? whole
  have positive : 0 < n.natAbs := by
    have units := Binary64.units_pos (Nat.pos_of_ne_zero nonzero)
    rw [← count] at units
    exact Nat.pos_of_mul_pos_right units
  have sign : decide (n < 0) = Binary64.isNegative x := by
    unfold Binary64.sign at signed
    cases negative : Binary64.isNegative x with
    | true =>
        rw [negative] at signed
        change n = -(n.natAbs : Int) at signed
        exact decide_eq_true (by omega)
    | false =>
        rw [negative] at signed
        change n = (n.natAbs : Int) at signed
        exact decide_eq_false (by omega)
  rw [toFloat]
  dsimp only
  rw [magnitude_of_units (of_decide_eq_true finite) count, sign, Binary64.ofMagnitude_magnitude]

end Decimal

namespace Token

/-- A finite number other than zero is read from its printed text. -/
theorem classify_numberText {x : Float} (finite : Binary64.isFinite x = true)
    (nonzero : Binary64.magnitude x ≠ 0) : classify (Value.numberText x) = .number x := by
  by_cases whole : ∃ n, Binary64.toInt? x = some n ∧ n.natAbs < Value.wholeBound
  · obtain ⟨n, whole, small⟩ := whole
    rw [Value.numberText_of_whole whole small, classify, Decimal.read?_toString]
    dsimp only
    rw [Decimal.toFloat_of_whole whole nonzero]
  · obtain ⟨decimal, read, number⟩ := Layout.exists_decimal_console finite nonzero
    rw [Value.numberText_of_finite finite, classify, String.toList_ofList, read]
    · dsimp only
      rw [number]
    · intro n is_whole
      by_contra small
      exact whole ⟨n, is_whole, Nat.not_le.mp small⟩

/-- Both zeros are printed without a sign and read as the positive one. -/
theorem classify_numberText_zero {x : Float} (zero : Binary64.magnitude x = 0) :
    Value.numberText x = "0" ∧ classify "0" = .number (Float.ofBits 0) ∧
      (Float.ofBits 0 == x) = true ∧
      (x.toBits = (Float.ofBits 0).toBits ∨ x.toBits = 0x8000000000000000) := by
  have bits := Binary64.ofMagnitude_magnitude x
  rw [zero] at bits
  rw [← bits]
  cases Binary64.isNegative x with
  | true => decide +kernel
  | false => decide +kernel

/-- The printed text of a finite number is read as an equal number, with the same bits unless
it is the negative zero, which is printed as `0`. A whole number below the bound is
printed as the integer of 64 bits to which it is cut. -/
theorem classify_display {x : Float} (finite : Binary64.isFinite x = true) :
    (∃ y, classify (Value.number x).display = .number y ∧ (y == x) = true ∧
      (x.toBits ≠ 0x8000000000000000 → y.toBits = x.toBits) ∧
      (x.toBits = 0x8000000000000000 → (Value.number x).display = "0" ∧ y.toBits = 0)) ∧
    ∀ n, Binary64.toInt? x = some n → n.natAbs < Value.wholeBound →
      (Value.number x).display = toString x.toModel.toInt64 := by
  refine ⟨?_, fun n whole small => Value.numberText_eq_toInt64 whole small⟩
  change ∃ y, classify (Value.numberText x) = .number y ∧ _ ∧ _ ∧ (_ → Value.numberText x = "0" ∧ _)
  by_cases zero : Binary64.magnitude x = 0
  · obtain ⟨text, read, equal, bits⟩ := classify_numberText_zero zero
    refine ⟨Float.ofBits 0, by rw [text, read], equal, fun positive => ?_, fun _ => ⟨text, rfl⟩⟩
    exact (bits.resolve_right positive).symm
  · refine ⟨x, classify_numberText finite zero, ?_, fun _ => rfl, fun negative => ?_⟩
    · rw [Float.beq_self_iff]
      rintro rfl
      exact absurd finite (by decide +kernel)
    · rw [Binary64.magnitude, negative] at zero
      exact absurd rfl zero

/-- The least whole number that is printed as an integer. -/
theorem classify_display_of_least :
    Binary64.isFinite (-999999999999999) = true ∧
      (∃ y, classify (Value.number (-999999999999999)).display = .number y ∧
        (y == -999999999999999) = true ∧ y.toBits = (-999999999999999 : Float).toBits) ∧
      (Value.number (-999999999999999)).display =
        toString (-999999999999999 : Float).toModel.toInt64 := by
  have finite : Binary64.isFinite (-999999999999999) = true := by decide +kernel
  have whole : Binary64.toInt? (-999999999999999) = some (-999999999999999) := by decide +kernel
  obtain ⟨⟨y, read, equal, bits, _⟩, text⟩ := classify_display finite
  exact ⟨finite, ⟨y, read, equal, bits (by decide +kernel)⟩, text _ whole (by decide)⟩

end Token

end WordMachine
