import WordMachine.Json.Basic

/-! # Writing JSON

A value is written compactly on one line, or with one element or member a line and two
blanks of indent for each level. Both ways escape only what has to be escaped; all
other characters stand for themselves.
-/

namespace WordMachine

namespace Json

/-- A hexadecimal digit in lower case. -/
def hexDigit (n : Nat) : Char :=
  Nat.digitChar (n % 16)

/-- How a character stands in a string. -/
def escaped (c : Char) : List Char :=
  if c = '"' then ['\\', '"']
  else if c = '\\' then ['\\', '\\']
  else if c = '\x08' then ['\\', 'b']
  else if c = '\x0C' then ['\\', 'f']
  else if c = '\n' then ['\\', 'n']
  else if c = '\r' then ['\\', 'r']
  else if c = '\t' then ['\\', 't']
  else if c.toNat < 0x20 then ['\\', 'u', '0', '0', hexDigit (c.toNat / 16), hexDigit c.toNat]
  else [c]

/-- A text in quotes. -/
def quoted (text : String) : List Char :=
  '"' :: text.toList.flatMap escaped ++ ['"']

/-- A string in quotes; one without a text is written empty. -/
def quotedOption (text : Option String) : List Char :=
  quoted (text.getD "")

mutual

/-- A value on one line. -/
def compactChars : Json → List Char
  | .null => ['n', 'u', 'l', 'l']
  | .bool true => ['t', 'r', 'u', 'e']
  | .bool false => ['f', 'a', 'l', 's', 'e']
  | .number chars => chars
  | .string text => quotedOption text
  | .array [] => ['[', ']']
  | .array (item :: items) => '[' :: compactChars item ++ compactItems items
  | .object [] => ['{', '}']
  | .object ((name, value) :: members) =>
    '{' :: quotedOption name ++ ':' :: compactChars value ++ compactMembers members

/-- The further elements of an array, and its end. -/
def compactItems : List Json → List Char
  | [] => [']']
  | item :: items => ',' :: compactChars item ++ compactItems items

/-- The further members of an object, and its end. -/
def compactMembers : List (Option String × Json) → List Char
  | [] => ['}']
  | (name, value) :: members =>
    ',' :: quotedOption name ++ ':' :: compactChars value ++ compactMembers members

end

/-- The start of a line at a level. -/
def newLine (level : Nat) : List Char :=
  '\n' :: List.replicate (2 * level) ' '

mutual

/-- A value that starts at a level, with one element or member a line. -/
def prettyChars (level : Nat) : Json → List Char
  | .null => ['n', 'u', 'l', 'l']
  | .bool true => ['t', 'r', 'u', 'e']
  | .bool false => ['f', 'a', 'l', 's', 'e']
  | .number chars => chars
  | .string text => quotedOption text
  | .array [] => ['[', ']']
  | .array (item :: items) =>
    '[' :: newLine (level + 1) ++ prettyChars (level + 1) item ++ prettyItems level items
  | .object [] => ['{', '}']
  | .object ((name, value) :: members) =>
    '{' :: newLine (level + 1) ++ quotedOption name ++ ':' :: ' ' :: prettyChars (level + 1) value ++
      prettyMembers level members

/-- The further elements of an array at a level, and its end. -/
def prettyItems (level : Nat) : List Json → List Char
  | [] => newLine level ++ [']']
  | item :: items =>
    ',' :: newLine (level + 1) ++ prettyChars (level + 1) item ++ prettyItems level items

/-- The further members of an object at a level, and its end. -/
def prettyMembers (level : Nat) : List (Option String × Json) → List Char
  | [] => newLine level ++ ['}']
  | (name, value) :: members =>
    ',' :: newLine (level + 1) ++ quotedOption name ++ ':' :: ' ' :: prettyChars (level + 1) value ++
      prettyMembers level members

end

/-- The text of a value on one line. -/
def compact (j : Json) : String :=
  String.ofList (compactChars j)

end Json

end WordMachine
