import WordMachine.Number.Binary64
import WordMachine.Text

/-! # Decimal numerals and the numbers they denote

A numeral is an optional sign, digits with an optional point and at least one
digit in all, and optionally `e` or `E` with an optional sign and at least one
digit. It denotes the binary64 number nearest to its decimal value. A reader that keeps
only so many digits takes the value of the clipped numeral instead.
-/

namespace WordMachine

/-- The decimal value `± digits * 10 ^ exponent`. -/
structure Decimal where
  negative : Bool
  digits : Nat
  exponent : Int
  deriving DecidableEq, Repr

namespace Decimal

/-- The magnitude of the binary64 number nearest to `digits * 10 ^ exponent`. The two
bounds on the exponent only keep the powers of ten small: beyond them the value is
above every finite number, or below half of the smallest. -/
def magnitude (digits : Nat) (exponent : Int) : Nat :=
  if digits = 0 then 0
  else if 400 < exponent then Binary64.infinity
  else if exponent < -(400 + (digits.log2 : Int)) then 0
  else if 0 ≤ exponent then Binary64.ofUnits (digits * Nat.pow 10 exponent.toNat * Binary64.one) 1
  else Binary64.ofUnits (digits * Binary64.one) (Nat.pow 10 (-exponent).toNat)

/-- The binary64 number nearest to a decimal value. -/
def toFloat (d : Decimal) : Float :=
  Binary64.ofMagnitude d.negative (magnitude d.digits d.exponent)

end Decimal

/-- The parts of a numeral: its sign, the digits before and after the point, and the
exponent. -/
structure Numeral where
  negative : Bool
  whole : List Char
  fraction : List Char
  exponent : Int
  deriving DecidableEq, Repr

namespace Numeral

/-- An optional sign: whether it is a minus, and the text after it. -/
def takeSign : List Char → Bool × List Char
  | '+' :: cs => (false, cs)
  | '-' :: cs => (true, cs)
  | cs => (false, cs)

/-- An optional point with the digits after it, and the text after those. -/
def takeFraction : List Char → List Char × List Char
  | '.' :: cs => (cs.takeWhile Char.isDigit, cs.dropWhile Char.isDigit)
  | cs => ([], cs)

/-- The exponent that ends a numeral; none is zero. -/
def readExponent? : List Char → Option Int
  | [] => some 0
  | c :: cs =>
    let (negative, digits) := takeSign cs
    if (c = 'e' ∨ c = 'E') ∧ digits ≠ [] ∧ digits.all Char.isDigit then
      some (if negative then -(Text.ofDigits digits : Int) else Text.ofDigits digits)
    else none

/-- The parts of a numeral, or nothing for a text that is no numeral. -/
def read? (cs : List Char) : Option Numeral :=
  let (negative, unsigned) := takeSign cs
  let whole := unsigned.takeWhile Char.isDigit
  let (fraction, tail) := takeFraction (unsigned.dropWhile Char.isDigit)
  if whole ++ fraction = [] then none
  else (readExponent? tail).map fun exponent => { negative, whole, fraction, exponent }

/-- The decimal value of a numeral. -/
def value (n : Numeral) : Decimal :=
  { negative := n.negative, digits := Text.ofDigits (n.whole ++ n.fraction),
    exponent := n.exponent - n.fraction.length }

/-- The fraction without the zeros that end it. -/
def bareFraction (n : Numeral) : List Char :=
  (n.fraction.reverse.dropWhile (· = '0')).reverse

/-- The digits that count: all from the first that is not zero, without the zeros that end
the fraction. -/
def significant (n : Numeral) : List Char :=
  (n.whole ++ n.bareFraction).dropWhile (· = '0')

/-- The decimal value of a numeral of which only the first `limit` significant digits are
kept: one further digit 1 stands for all digits after them, also where these are the
zeros that end a whole number. -/
def clipped (limit : Nat) (n : Numeral) : Decimal :=
  if n.significant.length ≤ limit then n.value
  else
    { negative := n.negative, digits := Text.ofDigits (n.significant.take limit ++ ['1']),
      exponent := n.exponent - n.bareFraction.length + (n.significant.length - (limit + 1)) }

end Numeral

/-- The decimal value of a numeral, or nothing for a text that is no numeral. -/
def Decimal.read? (cs : List Char) : Option Decimal :=
  (Numeral.read? cs).map Numeral.value

end WordMachine
