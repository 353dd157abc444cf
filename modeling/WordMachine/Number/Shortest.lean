import WordMachine.Number.Decimal

/-! # The shortest digits that read back

A finite number is written with the fewest digits whose decimal value reads back
as the number. On each decimal grid only the two neighbours of the number can be
nearest to it, so ever finer grids are tried until a neighbour reads back.
-/

namespace WordMachine

namespace Shortest

/-- Which of two equally near neighbours is written. -/
inductive Tie where
  | up
  | toEven
  deriving DecidableEq, Repr

/-- Digits `d` and a position of the point: the value `d * 10 ^ exponent`. -/
structure Digits where
  digits : Nat
  exponent : Int
  deriving DecidableEq, Repr

/-- Whether the digits read back as the number of a magnitude. -/
def Digits.readsAs (d : Digits) (magnitude : Nat) : Bool :=
  Decimal.magnitude d.digits d.exponent == magnitude

/-- The quotient and the divisor that say how many times `10 ^ exponent` goes into the
number of a magnitude. -/
def gridRatio (magnitude : Nat) (exponent : Int) : Nat × Nat :=
  let count := Binary64.units magnitude
  if 0 ≤ exponent then (count, Binary64.one * Nat.pow 10 exponent.toNat)
  else (count * Nat.pow 10 (-exponent).toNat, Binary64.one)

/-- The neighbour on the grid of `10 ^ exponent` that reads back, the nearer one if both
do. -/
def onGrid? (tie : Tie) (magnitude : Nat) (exponent : Int) : Option Digits :=
  let (num, den) := gridRatio magnitude exponent
  let below : Digits := ⟨num / den, exponent⟩
  let above : Digits := ⟨num / den + 1, exponent⟩
  let twice := 2 * (num % den)
  let preferAbove := den < twice || twice == den && (tie == .up || num / den % 2 == 1)
  match below.readsAs magnitude, above.readsAs magnitude with
  | true, true => some (if preferAbove then above else below)
  | true, false => some below
  | false, true => some above
  | false, false => none

/-- The `p` for which the number of a positive magnitude lies from `10 ^ (p - 1)` up to
`10 ^ p`: the number of digits before the point. -/
def pointPosition (magnitude : Nat) : Int :=
  let (num, den) := gridRatio magnitude (-330)
  (Text.digitsOf (num / den)).length - 330

/-- All the digits of the number: a unit is `5 ^ 1074 * 10 ^ -1074`. -/
def exact (magnitude : Nat) : Digits :=
  ⟨Binary64.units magnitude * Nat.pow 5 1074, -1074⟩

/-- The digits on the first of `count` ever finer grids on which a neighbour reads back;
every digit of the number if there is none. -/
def search (tie : Tie) (magnitude : Nat) (exponent : Int) : Nat → Digits
  | 0 => exact magnitude
  | count + 1 =>
    match onGrid? tie magnitude exponent with
    | some d => d
    | none => search tie magnitude (exponent - 1) count

/-- Digits without a zero that ends them; only ten units of the coarsest grid have one. -/
def trim (d : Digits) : Digits :=
  if d.digits % 10 = 0 then ⟨d.digits / 10, d.exponent + 1⟩ else d

/-- The fewest digits that read back as the finite number of a magnitude. -/
def ofMagnitude (tie : Tie) (magnitude : Nat) : Digits :=
  if magnitude = 0 then ⟨0, 0⟩
  else trim (search tie magnitude (pointPosition magnitude - 1) 17)

end Shortest

end WordMachine
