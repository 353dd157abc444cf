import WordMachine.Json.Basic
import WordMachine.Number.Decimal

/-! # Records from JSON values

The rules by which values become fields of records. A record is an object with known
members, each at most once, among others that nobody looks at; or it is an array of its
fields in order, where fields at the end may be missing. Arrays and objects that are
looked at nest at most `maximalDepth` deep.
-/

namespace WordMachine

namespace Json

/-- How deep arrays and objects nest, as far as they are looked at. -/
def maximalDepth : Nat := 127

/-- The text of a string. -/
def text? : Json → Option String
  | .string text => text
  | _ => none

/-- A truth value. -/
def bool? : Json → Option Bool
  | .bool b => some b
  | _ => none

/-- A whole number that fits into 64 bits without a sign. -/
def word64? : Json → Option UInt64
  | .number chars =>
    if chars.all Char.isDigit ∧ Text.ofDigits chars < UInt64.size then
      some (UInt64.ofNat (Text.ofDigits chars))
    else none
  | _ => none

/-- How many significant digits of a number are kept. Every point halfway between two
neighbours among the finite numbers is written with no more of them, so a number that has
other digits than zeros after them is still read as the nearest. -/
def maximalDigits : Nat := 768

/-- A finite number. -/
def float? : Json → Option Float
  | .number chars => do
    let decimal ← (Numeral.read? chars).map (Numeral.clipped maximalDigits)
    guard (Decimal.magnitude decimal.digits decimal.exponent < Binary64.infinity)
    return decimal.toFloat
  | _ => none

/-- A value that may be `null`. -/
def orNull? {α : Type} (read : Json → Option α) : Json → Option (Option α)
  | .null => some none
  | j => (read j).map some

/-- The values of all members with a name. -/
def membersNamed (name : String) (members : List (Option String × Json)) : List Json :=
  (members.filter fun member => member.1 == some name).map Prod.snd

/-- The value of a member that occurs at most once. -/
def member? (members : List (Option String × Json)) (name : String) : Option (Option Json) :=
  match membersNamed name members with
  | [] => some none
  | [value] => some (some value)
  | _ => none

/-- Whether every member has a name. -/
def allNamed (members : List (Option String × Json)) : Bool :=
  members.all fun member => member.1.isSome

/-- The fields of a record with the given names; a field that is missing is `none`. -/
def fields? (names : List String) : Json → Option (List (Option Json))
  | .object members => if allNamed members then names.mapM (member? members) else none
  | .array items =>
    if items.length ≤ names.length then
      some (items.map some ++ List.replicate (names.length - items.length) none)
    else none
  | _ => none

/-- A field that has to be there. -/
def required? {α : Type} (read : Json → Option α) (field : Option Json) : Option α :=
  field.bind read

/-- A field with a default. -/
def optional? {α : Type} (read : Json → Option α) (default : α) : Option Json → Option α
  | none => some default
  | some value => read value

/-- The elements of an array, each read. -/
def list? {α : Type} (read : Json → Option α) : Json → Option (List α)
  | .array items => items.mapM read
  | _ => none

end Json

end WordMachine
