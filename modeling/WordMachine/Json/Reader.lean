import WordMachine.Json.Basic

/-! # Reading JSON

The reader accepts strict JSON and nothing else. Every part of it takes the characters
that it needs from the front of a list and gives back the rest.
-/

namespace WordMachine

namespace Json

/-- The four blanks of JSON. -/
def isSpace (c : Char) : Bool :=
  c == ' ' || c == '\t' || c == '\n' || c == '\r'

/-- The characters after blanks. -/
def skipSpace (cs : List Char) : List Char :=
  cs.dropWhile isSpace

/-! ## Numbers -/

/-- At least one digit. -/
def takeDigits? (cs : List Char) : Option (List Char × List Char) :=
  let digits := cs.takeWhile Char.isDigit
  if digits = [] then none else some (digits, cs.dropWhile Char.isDigit)

/-- A whole part: zero, or digits that do not start with zero. -/
def takeWhole? : List Char → Option (List Char × List Char)
  | '0' :: rest => some (['0'], rest)
  | cs => takeDigits? cs

/-- An optional fraction. -/
def takeFraction? : List Char → Option (List Char × List Char)
  | '.' :: rest => (takeDigits? rest).map fun (digits, after) => ('.' :: digits, after)
  | cs => some ([], cs)

/-- An optional sign. -/
def takeSign : List Char → List Char × List Char
  | '+' :: rest => (['+'], rest)
  | '-' :: rest => (['-'], rest)
  | cs => ([], cs)

/-- An optional exponent. -/
def takeExponent? : List Char → Option (List Char × List Char)
  | c :: rest =>
    if c = 'e' ∨ c = 'E' then
      let (sign, after) := takeSign rest
      (takeDigits? after).map fun (digits, after) => (c :: sign ++ digits, after)
    else some ([], c :: rest)
  | [] => some ([], [])

/-- A number without a sign. -/
def takeUnsigned? (cs : List Char) : Option (List Char × List Char) := do
  let (whole, cs) ← takeWhole? cs
  let (fraction, cs) ← takeFraction? cs
  let (exponent, cs) ← takeExponent? cs
  return (whole ++ fraction ++ exponent, cs)

/-- A number. -/
def takeNumber? : List Char → Option (List Char × List Char)
  | '-' :: rest => (takeUnsigned? rest).map fun (chars, after) => ('-' :: chars, after)
  | cs => takeUnsigned? cs

/-! ## Strings -/

/-- The value of a hexadecimal digit. -/
def hexValue? (c : Char) : Option Nat :=
  if '0' ≤ c ∧ c ≤ '9' then some (c.toNat - '0'.toNat)
  else if 'a' ≤ c ∧ c ≤ 'f' then some (c.toNat - 'a'.toNat + 10)
  else if 'A' ≤ c ∧ c ≤ 'F' then some (c.toNat - 'A'.toNat + 10)
  else none

/-- The value of four hexadecimal digits. -/
def hexQuad? (a b c d : Char) : Option Nat := do
  return (((← hexValue? a) * 16 + (← hexValue? b)) * 16 + (← hexValue? c)) * 16 + (← hexValue? d)

/-- The character that a letter after a backslash stands for. -/
def escape? : Char → Option Char
  | '"' => some '"'
  | '\\' => some '\\'
  | '/' => some '/'
  | 'b' => some '\x08'
  | 'f' => some '\x0C'
  | 'n' => some '\n'
  | 'r' => some '\r'
  | 't' => some '\t'
  | _ => none

/-- The first half of a surrogate pair. -/
def isHighSurrogate (n : Nat) : Bool :=
  0xD800 ≤ n && n ≤ 0xDBFF

/-- The second half of a surrogate pair. -/
def isLowSurrogate (n : Nat) : Bool :=
  0xDC00 ≤ n && n ≤ 0xDFFF

/-- The character of a surrogate pair. -/
def pairCharacter (high low : Nat) : Char :=
  Char.ofNat (0x10000 + (high - 0xD800) * 0x400 + (low - 0xDC00))

/-- What an escape of four digits puts into a string. -/
inductive Unit16 where
  | character (c : Char)
  | unpaired

/-- The escape of four digits of value `n`, and how it goes on: a first half that is
followed by the escape of a second half takes both. -/
def takeUnit (n : Nat) (rest : List Char) : Unit16 × List Char :=
  if isHighSurrogate n then
    match rest with
    | '\\' :: 'u' :: a :: b :: c :: d :: after =>
      match hexQuad? a b c d with
      | some low => if isLowSurrogate low then (.character (pairCharacter n low), after)
        else (.unpaired, rest)
      | none => (.unpaired, rest)
    | _ => (.unpaired, rest)
  else if isLowSurrogate n then (.unpaired, rest)
  else (.character (Char.ofNat n), rest)

/-- The rest of a string up to its closing quote, after the characters `read`, the last
first; `none` in their place says that an unpaired surrogate came up. Every character
uses up one step. -/
def takeString? : (steps : Nat) → (read : Option (List Char)) → List Char →
    Option (Option String × List Char)
  | 0, _, _ => none
  | _ + 1, _, [] => none
  | _ + 1, read, '"' :: rest => some (read.map fun cs => String.ofList cs.reverse, rest)
  | steps + 1, read, '\\' :: 'u' :: a :: b :: c :: d :: rest =>
    match hexQuad? a b c d with
    | none => none
    | some n =>
      match takeUnit n rest with
      | (.character x, after) => takeString? steps (read.map (x :: ·)) after
      | (.unpaired, after) => takeString? steps none after
  | steps + 1, read, '\\' :: c :: rest =>
    match escape? c with
    | none => none
    | some x => takeString? steps (read.map (x :: ·)) rest
  | steps + 1, read, c :: rest =>
    if c = '\\' ∨ c.toNat < 0x20 then none else takeString? steps (read.map (c :: ·)) rest

/-- A string after its opening quote. -/
def takeQuoted? (cs : List Char) : Option (Option String × List Char) :=
  takeString? (cs.length + 1) (some []) cs

/-! ## Values -/

/-- A literal. -/
def takeLiteral? (literal : List Char) (value : Json) (cs : List Char) :
    Option (Json × List Char) :=
  if literal.isPrefixOf cs then some (value, cs.drop literal.length) else none

mutual

/-- A value after blanks. Each level and each element uses up one step. -/
def takeValue? : (steps : Nat) → List Char → Option (Json × List Char)
  | 0, _ => none
  | steps + 1, cs =>
    match skipSpace cs with
    | '"' :: rest => (takeQuoted? rest).map fun (text, after) => (.string text, after)
    | '[' :: rest =>
      match skipSpace rest with
      | ']' :: after => some (.array [], after)
      | _ => (takeItems? steps rest).map fun (items, after) => (.array items, after)
    | '{' :: rest =>
      match skipSpace rest with
      | '}' :: after => some (.object [], after)
      | _ => (takeMembers? steps rest).map fun (members, after) => (.object members, after)
    | 'n' :: rest => takeLiteral? ['u', 'l', 'l'] .null rest
    | 't' :: rest => takeLiteral? ['r', 'u', 'e'] (.bool true) rest
    | 'f' :: rest => takeLiteral? ['a', 'l', 's', 'e'] (.bool false) rest
    | rest => (takeNumber? rest).map fun (chars, after) => (.number chars, after)

/-- The elements of an array up to its closing bracket; there is at least one. -/
def takeItems? : (steps : Nat) → List Char → Option (List Json × List Char)
  | 0, _ => none
  | steps + 1, cs =>
    match takeValue? steps cs with
    | none => none
    | some (item, rest) =>
      match skipSpace rest with
      | ']' :: after => some ([item], after)
      | ',' :: more => (takeItems? steps more).map fun (items, after) => (item :: items, after)
      | _ => none

/-- The members of an object up to its closing brace; there is at least one. -/
def takeMembers? : (steps : Nat) → List Char → Option (List (Option String × Json) × List Char)
  | 0, _ => none
  | steps + 1, cs =>
    match skipSpace cs with
    | '"' :: rest =>
      match takeQuoted? rest with
      | none => none
      | some (name, rest) =>
        match skipSpace rest with
        | ':' :: rest =>
          match takeValue? steps rest with
          | none => none
          | some (value, rest) =>
            match skipSpace rest with
            | '}' :: after => some ([(name, value)], after)
            | ',' :: more =>
              (takeMembers? steps more).map fun (members, after) =>
                ((name, value) :: members, after)
            | _ => none
        | _ => none
    | _ => none

end

/-- The value that a list of characters writes, with nothing but blanks around it. A value
of `n` characters has fewer than `2 * n` levels and elements. -/
def readChars? (cs : List Char) : Option Json :=
  match takeValue? (2 * cs.length + 2) cs with
  | some (value, rest) => if skipSpace rest = [] then some value else none
  | none => none

/-- The value that a text writes. -/
def read? (text : String) : Option Json :=
  readChars? text.toList

end Json

end WordMachine
