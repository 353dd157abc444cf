/-! # Blanks, fields and decimal text

The character classes and the splitting rule that source texts and stored
records share. A blank is a character with the Unicode property `White_Space`,
and the fields of a text are its maximal runs of other characters.
-/

namespace WordMachine

namespace Text

/-- The characters with the property `White_Space`, as ranges of code points. -/
def blankRanges : List (Nat × Nat) :=
  [(0x9, 0xD), (0x20, 0x20), (0x85, 0x85), (0xA0, 0xA0), (0x1680, 0x1680),
    (0x2000, 0x200A), (0x2028, 0x2029), (0x202F, 0x202F), (0x205F, 0x205F), (0x3000, 0x3000)]

/-- Whether a code point lies in one of some ranges, whose ends belong to them. -/
def inRanges (ranges : List (Nat × Nat)) (c : Char) : Bool :=
  ranges.any fun range => range.1 ≤ c.toNat && c.toNat ≤ range.2

/-- A blank separates fields. -/
def isBlank (c : Char) : Bool :=
  inRanges blankRanges c

/-- A run of characters joins the fields after it unless it is empty. -/
def closeField (run : List Char) (fields : List (List Char)) : List (List Char) :=
  if run = [] then fields else run :: fields

/-- The run that starts a text, and the fields after that run. -/
def runAndFields (cs : List Char) : List Char × List (List Char) :=
  cs.foldr
    (fun c (run, fields) => if isBlank c then ([], closeField run fields) else (c :: run, fields))
    ([], [])

/-- The maximal runs of characters that are not blank, in order. -/
def fields (cs : List Char) : List (List Char) :=
  closeField (runAndFields cs).1 (runAndFields cs).2

/-- The fields of a text as texts. -/
def words (text : String) : List String :=
  (fields text.toList).map String.ofList

/-- A text without the blanks that start it. -/
def dropBlanks (cs : List Char) : List Char :=
  cs.dropWhile isBlank

/-- The value of a digit; zero is written `0`. -/
def digitValue (c : Char) : Nat :=
  c.toNat - '0'.toNat

/-- The number that a run of digits writes in base ten. -/
def ofDigits (digits : List Char) : Nat :=
  digits.foldl (fun value c => value * 10 + digitValue c) 0

/-- The digits of a number in base ten, without leading zeros. -/
def digitsOf (n : Nat) : List Char :=
  Nat.toDigits 10 n

/-- The last `width` digits of a number, with zeros in front where it has fewer. -/
def paddedDigits : (width n : Nat) → List Char
  | 0, _ => []
  | width + 1, n => paddedDigits width (n / 10) ++ [Nat.digitChar (n % 10)]

/-- The text of a natural number in base ten. -/
def natText (n : Nat) : String :=
  String.ofList (digitsOf n)

end Text

end WordMachine
