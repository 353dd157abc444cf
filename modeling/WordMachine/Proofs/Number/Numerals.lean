import WordMachine.Number.Decimal
import WordMachine.Proofs.Json.Spelling

/-! # The grammar of numerals

A numeral is an optional sign, digits with an optional point among them, at least one
digit in all, and an optional exponent. The reader of numerals accepts exactly these texts
and finds their parts (`Numeral.read?_eq_some_iff`): no part starts with a character that
could continue the part before it.
-/

namespace WordMachine

namespace Numeral

open Json (Digits)

/-- An optional sign, and whether it is a minus. -/
inductive SignText : List Char → Bool → Prop where
  | none : SignText [] false
  | plus : SignText ['+'] false
  | minus : SignText ['-'] true

/-- An optional point, and the digits after it. -/
inductive FractionText : List Char → List Char → Prop where
  | none : FractionText [] []
  | point {digits : List Char} (all : ∀ c ∈ digits, c.isDigit = true) :
      FractionText ('.' :: digits) digits

/-- An optional exponent, and its value. -/
inductive ExponentText : List Char → Int → Prop where
  | none : ExponentText [] 0
  | marked {mark : Char} {sign digits : List Char} {negative : Bool}
      (letter : mark = 'e' ∨ mark = 'E') (signed : SignText sign negative)
      (all : Digits digits) :
      ExponentText (mark :: (sign ++ digits))
        (if negative then -(Text.ofDigits digits : Int) else Text.ofDigits digits)

/-- A text writes the parts of a numeral in their order. -/
structure Written (cs : List Char) (n : Numeral) : Prop where
  text : ∃ sign point exponent, cs = sign ++ (n.whole ++ (point ++ exponent)) ∧
    SignText sign n.negative ∧ FractionText point n.fraction ∧ ExponentText exponent n.exponent
  whole : ∀ c ∈ n.whole, c.isDigit = true
  nonempty : n.whole ++ n.fraction ≠ []

/-- A numeral is a text that writes the parts of one. -/
def IsNumeral (cs : List Char) : Prop :=
  ∃ n, Written cs n

/-! ## Signs -/

/-- A text that does not start with a sign. -/
def NoSign (cs : List Char) : Prop :=
  ∀ c ∈ cs.head?, c ≠ '+' ∧ c ≠ '-'

/-- A digit is no sign. -/
theorem noSign_of_digit {c : Char} (digit : c.isDigit = true) (rest : List Char) :
    NoSign (c :: rest) := by
  rintro _ ⟨⟩
  constructor
  · rintro rfl
    exact absurd digit (by decide)
  · rintro rfl
    exact absurd digit (by decide)

/-- Without a sign nothing is taken. -/
theorem takeSign_of_noSign {cs : List Char} (unsigned : NoSign cs) :
    takeSign cs = (false, cs) := by
  unfold takeSign
  split
  · exact absurd rfl (unsigned '+' rfl).1
  · exact absurd rfl (unsigned '-' rfl).2
  · rfl

/-- A sign is taken off what has none of its own. -/
theorem takeSign_append {sign rest : List Char} {negative : Bool} (signed : SignText sign negative)
    (unsigned : NoSign rest) : takeSign (sign ++ rest) = (negative, rest) := by
  cases signed with
  | none => exact takeSign_of_noSign unsigned
  | plus => rfl
  | minus => rfl

/-- What is taken is a sign. -/
theorem exists_signText (cs : List Char) :
    ∃ sign, cs = sign ++ (takeSign cs).2 ∧ SignText sign (takeSign cs).1 := by
  unfold takeSign
  split
  · exact ⟨['+'], rfl, .plus⟩
  · exact ⟨['-'], rfl, .minus⟩
  · exact ⟨[], rfl, .none⟩

/-! ## Fractions -/

/-- Digits end where a fraction starts, or what follows it if there is none. -/
theorem FractionText.endsDigits {point fraction rest : List Char}
    (written : FractionText point fraction) (ends : Text.EndsDigits rest) :
    Text.EndsDigits (point ++ rest) := by
  cases written with
  | none => exact ends
  | point _ => exact Text.endsDigits_cons rfl _

/-- A fraction is taken up to something that cannot continue it. -/
theorem takeFraction_append {point fraction rest : List Char}
    (written : FractionText point fraction) (ends : Text.EndsDigits rest)
    (other : ∀ after, rest ≠ '.' :: after) :
    takeFraction (point ++ rest) = (fraction, rest) := by
  cases written with
  | none =>
      rw [List.nil_append]
      unfold takeFraction
      split
      · next after => exact absurd rfl (other after)
      · rfl
  | point all =>
      rw [List.cons_append, takeFraction, Text.takeWhile_isDigit_append all ends,
        Text.dropWhile_isDigit_append all ends]

/-- What is taken is a fraction. -/
theorem exists_fractionText (cs : List Char) :
    ∃ point, cs = point ++ (takeFraction cs).2 ∧ FractionText point (takeFraction cs).1 := by
  unfold takeFraction
  split
  · next digits =>
      refine ⟨'.' :: digits.takeWhile Char.isDigit, ?_,
        .point (List.all_eq_true.mp List.all_takeWhile)⟩
      rw [List.cons_append, List.takeWhile_append_dropWhile]
  · exact ⟨[], rfl, .none⟩

/-! ## Exponents -/

/-- An exponent starts neither with a digit nor with the point. -/
theorem ExponentText.ends {cs : List Char} {exponent : Int} (written : ExponentText cs exponent) :
    Text.EndsDigits cs ∧ ∀ after, cs ≠ '.' :: after := by
  cases written with
  | none => exact ⟨nofun, nofun⟩
  | marked letter _ _ =>
      rcases letter with rfl | rfl
      · exact ⟨Text.endsDigits_cons rfl _, nofun⟩
      · exact ⟨Text.endsDigits_cons rfl _, nofun⟩

/-- An exponent is read with its value. -/
theorem readExponent?_of_exponentText {cs : List Char} {exponent : Int}
    (written : ExponentText cs exponent) : readExponent? cs = some exponent := by
  cases written with
  | none => rfl
  | @marked mark sign digits negative letter signed all =>
      obtain ⟨c, rest, rfl, digit⟩ := Json.isDigit_of_head all
      have every : (c :: rest).all Char.isDigit = true := List.all_eq_true.mpr all.digits
      rw [readExponent?, takeSign_append signed (noSign_of_digit digit rest)]
      exact if_pos ⟨letter, all.nonempty, every⟩

/-- What is read as an exponent is one. -/
theorem exponentText_of_readExponent? {cs : List Char} {exponent : Int}
    (read : readExponent? cs = some exponent) : ExponentText cs exponent := by
  cases cs with
  | nil =>
      cases read
      exact .none
  | cons mark cs =>
      obtain ⟨sign, text, signed⟩ := exists_signText cs
      simp only [readExponent?] at read
      split at read
      · next marked =>
          obtain ⟨letter, nonempty, all⟩ := marked
          cases read
          have written := ExponentText.marked letter signed
            ⟨nonempty, List.all_eq_true.mp all⟩
          rwa [← text] at written
      · cases read

/-! ## Numerals -/

/-- A text that starts with a digit or with the point. -/
def StartsDigits (cs : List Char) : Prop :=
  ∃ c rest, cs = c :: rest ∧ (c.isDigit = true ∨ c = '.')

theorem StartsDigits.noSign {cs : List Char} (starts : StartsDigits cs) : NoSign cs := by
  obtain ⟨c, rest, rfl, digit | rfl⟩ := starts
  · exact noSign_of_digit digit rest
  · rintro _ ⟨⟩
    decide

/-- Digits before or after the point come first, or the point does. -/
theorem startsDigits_of_nonempty {whole point fraction : List Char}
    (all : ∀ c ∈ whole, c.isDigit = true) (written : FractionText point fraction)
    (nonempty : whole ++ fraction ≠ []) (exponent : List Char) :
    StartsDigits (whole ++ (point ++ exponent)) := by
  cases whole with
  | cons c rest => exact ⟨c, _, rfl, .inl (all c List.mem_cons_self)⟩
  | nil =>
      cases written with
      | none => exact absurd rfl nonempty
      | point _ => exact ⟨'.', _, rfl, .inr rfl⟩

/-- What follows the sign of a numeral starts with a digit or with the point. -/
theorem Written.startsDigits {cs : List Char} {n : Numeral} (written : Written cs n) :
    StartsDigits (takeSign cs).2 := by
  obtain ⟨⟨sign, point, exponent, rfl, signed, pointed, _⟩, all, nonempty⟩ := written
  have starts := startsDigits_of_nonempty all pointed nonempty exponent
  rw [takeSign_append signed starts.noSign]
  exact starts

/-- A text that writes the parts of a numeral is read as them. -/
theorem Written.read? {cs : List Char} {n : Numeral} (written : Written cs n) :
    Numeral.read? cs = some n := by
  obtain ⟨⟨sign, point, exponent, rfl, signed, pointed, exponent_written⟩, all, nonempty⟩ := written
  obtain ⟨ends, other⟩ := exponent_written.ends
  have ends_whole := pointed.endsDigits ends
  unfold Numeral.read?
  rw [takeSign_append signed (startsDigits_of_nonempty all pointed nonempty exponent).noSign]
  dsimp only
  rw [Text.takeWhile_isDigit_append all ends_whole, Text.dropWhile_isDigit_append all ends_whole,
    takeFraction_append pointed ends other]
  dsimp only
  rw [if_neg nonempty, readExponent?_of_exponentText exponent_written, Option.map_some]

/-- The parts that are read are written in the text. -/
theorem written_of_read? {cs : List Char} {n : Numeral} (read : Numeral.read? cs = some n) :
    Written cs n := by
  obtain ⟨sign, text, signed⟩ := exists_signText cs
  unfold Numeral.read? at read
  generalize takeSign cs = taken at *
  obtain ⟨negative, unsigned⟩ := taken
  dsimp only at text signed read
  obtain ⟨point, after_whole, pointed⟩ := exists_fractionText (unsigned.dropWhile Char.isDigit)
  generalize takeFraction (unsigned.dropWhile Char.isDigit) = taken at *
  obtain ⟨fraction, tail⟩ := taken
  dsimp only at after_whole pointed read
  split at read
  · cases read
  · next nonempty =>
      obtain ⟨exponent, exponent_read, rfl⟩ := Option.map_eq_some_iff.mp read
      refine ⟨⟨sign, point, tail, ?_, signed, pointed, exponentText_of_readExponent? exponent_read⟩,
        List.all_eq_true.mp List.all_takeWhile, nonempty⟩
      rw [← after_whole, List.takeWhile_append_dropWhile]
      exact text

/-- The reader finds the parts of every numeral, and of no other text. -/
theorem read?_eq_some_iff {cs : List Char} {n : Numeral} :
    Numeral.read? cs = some n ↔ Written cs n :=
  ⟨written_of_read?, Written.read?⟩

/-- Numerals are what is read. -/
theorem isSome_read?_iff {cs : List Char} : (Numeral.read? cs).isSome = true ↔ IsNumeral cs := by
  rw [Option.isSome_iff_exists]
  exact exists_congr fun _ => read?_eq_some_iff

instance : DecidablePred IsNumeral := fun _ =>
  decidable_of_iff _ isSome_read?_iff

end Numeral

end WordMachine
