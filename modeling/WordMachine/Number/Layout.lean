import WordMachine.Number.Shortest

/-! # Layouts of numbers

A layout decides how the shortest digits of a number become text: which numbers are
written without an exponent, whether a whole number keeps a fraction, and how an
exponent is marked. The formats that print numbers each have one value of `Layout`.
-/

namespace WordMachine

/-- The decisions of one format. A number is positional if its point stands after more
than `positional.1` and at most `positional.2` digits; without bounds every number is. -/
structure Layout where
  tie : Shortest.Tie
  positional : Option (Int × Int)
  keepFraction : Bool
  plusExponent : Bool

namespace Layout

/-- Digits around a point that stands after `point` of them. -/
def positionalText (layout : Layout) (digits : List Char) (point : Int) : List Char :=
  if point ≤ 0 then '0' :: '.' :: List.replicate (-point).toNat '0' ++ digits
  else if point < digits.length then
    digits.take point.toNat ++ '.' :: digits.drop point.toNat
  else
    digits ++ List.replicate (point.toNat - digits.length) '0' ++
      (if layout.keepFraction then ['.', '0'] else [])

/-- One digit before the point, the others after it, and the exponent. -/
def exponentText (layout : Layout) (digits : List Char) (point : Int) : List Char :=
  let fraction := digits.drop 1
  let exponent := point - 1
  digits.take 1 ++ (if fraction = [] then [] else '.' :: fraction) ++ 'e' ::
    ((if exponent < 0 then ['-'] else if layout.plusExponent then ['+'] else []) ++
      Text.digitsOf exponent.natAbs)

/-- The text of digits with an exponent. -/
def digitsText (layout : Layout) (d : Shortest.Digits) : List Char :=
  let digits := Text.digitsOf d.digits
  let point := digits.length + d.exponent
  match layout.positional with
  | none => layout.positionalText digits point
  | some (low, high) =>
    if low < point ∧ point ≤ high then layout.positionalText digits point
    else layout.exponentText digits point

/-- The text of a finite number. -/
def finiteText (layout : Layout) (x : Float) : List Char :=
  (if Binary64.isNegative x then ['-'] else []) ++
    layout.digitsText (Shortest.ofMagnitude layout.tie (Binary64.magnitude x))

/-- The text of a number. -/
def text (layout : Layout) (x : Float) : String :=
  if Binary64.isFinite x then String.ofList (layout.finiteText x)
  else if Binary64.isNaN x then "NaN"
  else if Binary64.isNegative x then "-inf"
  else "inf"

/-- How the console prints a number: no exponent, and no fraction for a whole number. -/
def console : Layout :=
  ⟨.up, none, false, false⟩

/-- How a stored state writes a number: positional from `0.00001` to below `10 ^ 16`,
always with a fraction or an exponent, the exponent signed. -/
def stored : Layout :=
  ⟨.toEven, some (-5, 16), true, true⟩

/-- How an inspection writes a number: positional from `0.0001` to below `10 ^ 16`,
always with a fraction or an exponent. -/
def inspected : Layout :=
  ⟨.up, some (-4, 16), true, false⟩

end Layout

end WordMachine
