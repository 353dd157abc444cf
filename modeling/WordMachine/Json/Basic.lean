import WordMachine.Text

/-! # JSON values

A value as it stands in a text: numbers keep their characters, and the members of an
object keep their order and may repeat. A string with an unpaired surrogate escape is
well formed but has no text; it may stand where nobody looks, and nowhere else.
-/

namespace WordMachine

/-- A JSON value. -/
inductive Json where
  | null
  | bool (b : Bool)
  | number (chars : List Char)
  | string (text : Option String)
  | array (items : List Json)
  | object (members : List (Option String × Json))

namespace Json

/-- A string with a text. -/
def ofText (text : String) : Json :=
  .string (some text)

/-- A natural number. -/
def ofNat (n : Nat) : Json :=
  .number (Text.digitsOf n)

/-- An object with the given members. -/
def ofMembers (members : List (String × Json)) : Json :=
  .object (members.map fun (name, value) => (some name, value))

/-- A value or `null`. -/
def ofOption {α : Type} (f : α → Json) : Option α → Json
  | none => .null
  | some a => f a

end Json

end WordMachine
