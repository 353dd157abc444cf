import Mathlib.Tactic.Ring
import WordMachine.Text

/-! # Digits and the numbers that they write

A run of digits is read by its value in base ten. Both ways of writing a number give
digits, and reading takes back the number: all of it, or its last digits.
-/

namespace WordMachine

namespace Text

theorem digitValue_digitChar {n : Nat} (small : n < 10) : digitValue (Nat.digitChar n) = n :=
  Nat.toNat_digitChar_sub_48_of_lt_ten small

@[simp]
theorem ofDigits_nil : ofDigits [] = 0 := rfl

/-- Digits after others add their value to the shifted value of those. -/
theorem ofDigits_append (first second : List Char) :
    ofDigits (first ++ second) = ofDigits first * 10 ^ second.length + ofDigits second := by
  have shifted : ∀ value, second.foldl (fun value c => value * 10 + digitValue c) value =
      value * 10 ^ second.length + ofDigits second := by
    induction second with
    | nil => simp
    | cons c rest ih =>
        intro value
        have alone := ih (digitValue c)
        simp only [ofDigits, List.foldl_cons, Nat.zero_mul, Nat.zero_add,
          List.length_cons] at alone ⊢
        rw [ih, alone, ofDigits]
        ring
  rw [ofDigits, List.foldl_append]
  exact shifted _

/-- One digit writes its value. -/
theorem ofDigits_singleton (c : Char) : ofDigits [c] = digitValue c := by
  simp [ofDigits]

/-- Zeros in front do not count. -/
theorem ofDigits_replicate_append (count : Nat) (digits : List Char) :
    ofDigits (List.replicate count '0' ++ digits) = ofDigits digits := by
  have zeros : ofDigits (List.replicate count '0') = 0 := by
    induction count with
    | zero => rfl
    | succ count ih => rw [List.replicate_succ', ofDigits_append, ih, ofDigits_singleton]; rfl
  rw [ofDigits_append, zeros, Nat.zero_mul, Nat.zero_add]

/-- Every zero that follows multiplies by ten. -/
theorem ofDigits_append_replicate (digits : List Char) (count : Nat) :
    ofDigits (digits ++ List.replicate count '0') = ofDigits digits * 10 ^ count := by
  have zeros := ofDigits_replicate_append count []
  rw [List.append_nil] at zeros
  rw [ofDigits_append, zeros, List.length_replicate, ofDigits_nil, Nat.add_zero]

/-! ## Runs of digits -/

/-- A run of digits ends where a text goes on with another character. -/
def EndsDigits (rest : List Char) : Prop :=
  ∀ c ∈ rest.head?, c.isDigit = false

/-- Digits end at a character that is none. -/
theorem endsDigits_cons {c : Char} (other : c.isDigit = false) (rest : List Char) :
    EndsDigits (c :: rest) := by
  rintro _ ⟨⟩
  exact other

/-- Where digits end, none are taken. -/
theorem takeWhile_isDigit_of_ends {rest : List Char} (ends : EndsDigits rest) :
    rest.takeWhile Char.isDigit = [] := by
  cases rest with
  | nil => rfl
  | cons c rest =>
      have other := ends c rfl
      rw [List.takeWhile_cons_of_neg (by simp [other])]

/-- Digits are taken up to the first other character. -/
theorem takeWhile_isDigit_append {cs rest : List Char} (digits : ∀ c ∈ cs, c.isDigit = true)
    (ends : EndsDigits rest) : (cs ++ rest).takeWhile Char.isDigit = cs := by
  rw [List.takeWhile_append_of_pos digits, takeWhile_isDigit_of_ends ends, List.append_nil]

/-- What follows the digits is left. -/
theorem dropWhile_isDigit_append {cs rest : List Char} (digits : ∀ c ∈ cs, c.isDigit = true)
    (ends : EndsDigits rest) : (cs ++ rest).dropWhile Char.isDigit = rest := by
  rw [List.dropWhile_append_of_pos digits]
  cases rest with
  | nil => rfl
  | cons c rest =>
      have other := ends c rfl
      rw [List.dropWhile_cons_of_neg (by simp [other])]

/-! ## All digits of a number -/

/-- A number is written in digits only. -/
theorem isDigit_of_mem_digitsOf {n : Nat} {c : Char} (member : c ∈ digitsOf n) :
    c.isDigit = true :=
  Nat.isDigit_of_mem_toDigits (by decide) (by decide) member

theorem digitsOf_ne_nil (n : Nat) : digitsOf n ≠ [] :=
  Nat.toDigits_ne_nil

/-- The last digit of a number follows the digits of its tenth. -/
theorem digitsOf_of_le {n : Nat} (large : 10 ≤ n) :
    digitsOf n = digitsOf (n / 10) ++ [Nat.digitChar (n % 10)] :=
  Nat.toDigits_of_base_le (by decide) large

theorem digitsOf_of_lt {n : Nat} (small : n < 10) : digitsOf n = [Nat.digitChar n] :=
  Nat.toDigits_of_lt_base small

/-- Digits are read as the number that they write. -/
theorem ofDigits_digitsOf (n : Nat) : ofDigits (digitsOf n) = n := by
  induction n using Nat.strongRecOn with
  | ind n ih =>
      by_cases small : n < 10
      · rw [digitsOf_of_lt small, ofDigits_singleton, digitValue_digitChar small]
      · rw [digitsOf_of_le (by omega), ofDigits_append, ih (n / 10) (by omega), ofDigits_singleton,
          digitValue_digitChar (Nat.mod_lt n (by decide)), List.length_singleton]
        omega

/-- A positive number does not start with a zero. -/
theorem head_digitsOf {n : Nat} (positive : 0 < n) :
    ∃ c rest, digitsOf n = c :: rest ∧ c ≠ '0' := by
  induction n using Nat.strongRecOn with
  | ind n ih =>
      by_cases small : n < 10
      · refine ⟨_, _, digitsOf_of_lt small, ?_⟩
        rw [Ne, Nat.digitChar_eq_zero]
        omega
      · obtain ⟨c, rest, tenth, visible⟩ := ih (n / 10) (by omega) (by omega)
        rw [digitsOf_of_le (by omega), tenth]
        exact ⟨c, _, rfl, visible⟩

/-- A number has at most so many digits exactly if it is below a power of ten. -/
theorem length_digitsOf_le_iff {n count : Nat} (positive : 0 < count) :
    (digitsOf n).length ≤ count ↔ n < 10 ^ count :=
  Nat.length_toDigits_le_iff (by decide) positive

/-- A number is below the power of ten that counts its digits. -/
theorem lt_pow_length_digitsOf (n : Nat) : n < 10 ^ (digitsOf n).length :=
  (length_digitsOf_le_iff Nat.length_toDigits_pos).mp le_rfl

/-- A positive number is not below the power of ten that its first digit counts. -/
theorem pow_length_digitsOf_le {n : Nat} (positive : 0 < n) :
    10 ^ ((digitsOf n).length - 1) ≤ n := by
  by_cases single : (digitsOf n).length = 1
  · rw [single]
    exact positive
  · have several : 0 < (digitsOf n).length := Nat.length_toDigits_pos
    have longer :=
      (@length_digitsOf_le_iff n ((digitsOf n).length - 1) (by omega)).not.mp (by omega)
    exact Nat.le_of_not_lt longer

/-! ## The last digits of a number -/

/-- Padding makes the width. -/
@[simp]
theorem length_paddedDigits (width n : Nat) : (paddedDigits width n).length = width := by
  induction width generalizing n with
  | zero => rfl
  | succ width ih => rw [paddedDigits, List.length_append, ih, List.length_singleton]

theorem isDigit_of_mem_paddedDigits {width n : Nat} {c : Char}
    (member : c ∈ paddedDigits width n) : c.isDigit = true := by
  induction width generalizing n with
  | zero => cases member
  | succ width ih =>
      rcases List.mem_append.mp member with before | last
      · exact ih before
      · rw [List.mem_singleton.mp last, Nat.isDigit_digitChar]
        exact decide_eq_true (Nat.mod_lt n (by decide))

/-- Padded digits write a number that has no more digits. -/
theorem ofDigits_paddedDigits {width n : Nat} (fits : n < 10 ^ width) :
    ofDigits (paddedDigits width n) = n := by
  induction width generalizing n with
  | zero =>
      rw [pow_zero, Nat.lt_one_iff] at fits
      rw [fits, paddedDigits, ofDigits_nil]
  | succ width ih =>
      have tenth : n / 10 < 10 ^ width := by
        rw [pow_succ] at fits
        omega
      rw [paddedDigits, ofDigits_append, ih tenth, ofDigits_singleton,
        digitValue_digitChar (Nat.mod_lt n (by decide)), List.length_singleton]
      omega

end Text

end WordMachine
