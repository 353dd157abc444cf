/-! # Exact arithmetic on binary64 numbers

A finite binary64 number is a whole number of units of `2 ^ -1074`. The lower 63
bits of its encoding, its *magnitude*, count the nonnegative numbers in order, so
every exact question about a number is a question about natural numbers. Infinity
has the magnitude that follows the largest finite one, and a larger magnitude is
not a number.
-/

namespace WordMachine

namespace Binary64

/-- The sign bit of an encoding, `2 ^ 63`. -/
def signBit : Nat := 0x8000000000000000

/-- How many numbers a binade has, `2 ^ 52`. -/
def binade : Nat := 0x10000000000000

/-- The magnitude of infinity. -/
def infinity : Nat := 0x7FF0000000000000

/-- The bits of a number without its sign. -/
def magnitude (x : Float) : Nat :=
  x.toBits.toNat % signBit

/-- Whether the sign bit is set. -/
def isNegative (x : Float) : Bool :=
  signBit ≤ x.toBits.toNat

/-- The number with a given sign and magnitude. -/
def ofMagnitude (negative : Bool) (magnitude : Nat) : Float :=
  Float.ofBits (UInt64.ofNat (if negative then signBit + magnitude else magnitude))

/-- Neither infinite nor a NaN. -/
def isFinite (x : Float) : Bool :=
  magnitude x < infinity

/-- Not a number. -/
def isNaN (x : Float) : Bool :=
  infinity < magnitude x

/-- The one NaN that calculations give. -/
def nan : Float := Float.ofBits 0x7FF8000000000000

/-- How many units of `2 ^ -1074` the finite number of a magnitude is. -/
def units (magnitude : Nat) : Nat :=
  if magnitude < binade then magnitude
  else (binade + magnitude % binade) * Nat.pow 2 (magnitude / binade - 1)

/-- The whole number nearest to a quotient; a half goes to the even neighbour. -/
def nearest (num den : Nat) : Nat :=
  let whole := num / den
  let rest := num % den
  if 2 * rest < den ∨ 2 * rest = den ∧ whole % 2 = 0 then whole else whole + 1

/-- The magnitude of the number nearest to `num / den` units. Below `2 ^ 53` units
every whole number of units is a number; above, a binade with spacing `2 ^ k`
starts at magnitude `(k + 1) * 2 ^ 52`. -/
def ofUnits (num den : Nat) : Nat :=
  let spacing := (num / den).log2 - 52
  min infinity (spacing * binade + nearest num (den * Nat.pow 2 spacing))

/-- How many units one is. -/
def one : Nat := Nat.pow 2 1074

/-- The remainder of the division that rounds toward zero. It is exact and has the
sign of the dividend. -/
def remainder (a b : Float) : Float :=
  if !isFinite a || isNaN b || magnitude b == 0 then nan
  else if !isFinite b then a
  else ofMagnitude (isNegative a) (ofUnits (units (magnitude a) % units (magnitude b)) 1)

/-- The smaller of two numbers; a NaN gives way to the other number. -/
def minimum (a b : Float) : Float :=
  if isNaN a then b else if isNaN b then a else if a < b then a else b

/-- The larger of two numbers; a NaN gives way to the other number. -/
def maximum (a b : Float) : Float :=
  if isNaN a then b else if isNaN b then a else if b < a then a else b

/-- The whole number that a number is, if it is one. -/
def toInt? (x : Float) : Option Int :=
  let count := units (magnitude x)
  if isFinite x && count % one == 0 then
    some (if isNegative x then -((count / one : Nat) : Int) else (count / one : Nat))
  else none

end Binary64

end WordMachine
