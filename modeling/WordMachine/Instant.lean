import WordMachine.Text

/-! # Instants and their text

An instant is a date and a time of day in UTC, to the nanosecond; second 60 is a
leap second. Its text is the one of RFC 3339 with `Z` and the fewest groups of three
fraction digits that are exact. Reading is more liberal than writing: fields may have
one digit, blanks may stand between them, and any offset below a day is taken back to
UTC.
-/

namespace WordMachine

namespace Calendar

/-- The Gregorian rule for leap years. -/
def isLeapYear (year : Int) : Bool :=
  year % 4 == 0 && (year % 100 != 0 || year % 400 == 0)

/-- How many days a month has. -/
def monthLength (year : Int) (month : Nat) : Nat :=
  if month = 2 then (if isLeapYear year then 29 else 28)
  else if month = 4 ∨ month = 6 ∨ month = 9 ∨ month = 11 then 30
  else 31

/-- The years that instants reach. -/
def yearInRange (year : Int) : Bool :=
  -262143 ≤ year && year ≤ 262142

/-- Whether a date is in the calendar. -/
def isDate (year : Int) (month day : Nat) : Bool :=
  yearInRange year && 1 ≤ month && month ≤ 12 && 1 ≤ day && day ≤ monthLength year month

/-- The date after a date. -/
def nextDay (year : Int) (month day : Nat) : Int × Nat × Nat :=
  if day < monthLength year month then (year, month, day + 1)
  else if month < 12 then (year, month + 1, 1)
  else (year + 1, 1, 1)

/-- The date before a date. -/
def previousDay (year : Int) (month day : Nat) : Int × Nat × Nat :=
  if 1 < day then (year, month, day - 1)
  else if 1 < month then (year, month - 1, monthLength year (month - 1))
  else (year - 1, 12, 31)

/-- Whether a time is one of a day; every minute may have a leap second. -/
def isTime (hour minute second nanos : Nat) : Bool :=
  hour < 24 && minute < 60 && second ≤ 60 && nanos < 1000000000

end Calendar

/-- A moment in UTC. -/
structure Instant where
  year : Int
  month : Nat
  day : Nat
  hour : Nat
  minute : Nat
  second : Nat
  nanos : Nat
  date_valid : Calendar.isDate year month day = true
  time_valid : Calendar.isTime hour minute second nanos = true
  deriving DecidableEq

namespace Instant

/-- The first moment of the year 2000. -/
def millennium : Instant :=
  ⟨2000, 1, 1, 0, 0, 0, 0, by decide, by decide⟩

/-- The instant with given fields, if they are a date and a time. -/
def ofFields? (year : Int) (month day hour minute second nanos : Nat) : Option Instant :=
  if date : Calendar.isDate year month day = true then
    if time : Calendar.isTime hour minute second nanos = true then
      some ⟨year, month, day, hour, minute, second, nanos, date, time⟩
    else none
  else none

/-! ## Writing -/

/-- A year has four digits; one that does not fit has a sign. -/
def yearText (year : Int) : List Char :=
  if 0 ≤ year ∧ year ≤ 9999 then Text.paddedDigits 4 year.toNat
  else
    (if year < 0 then '-' else '+') ::
      (if year.natAbs < 10000 then Text.paddedDigits 4 year.natAbs
       else Text.digitsOf year.natAbs)

/-- The fraction of a second in the fewest groups of three digits. -/
def fractionText (nanos : Nat) : List Char :=
  if nanos = 0 then []
  else if nanos % 1000000 = 0 then '.' :: Text.paddedDigits 3 (nanos / 1000000)
  else if nanos % 1000 = 0 then '.' :: Text.paddedDigits 6 (nanos / 1000)
  else '.' :: Text.paddedDigits 9 nanos

/-- The characters of an instant's text. -/
def chars (t : Instant) : List Char :=
  yearText t.year ++ '-' :: Text.paddedDigits 2 t.month ++ '-' :: Text.paddedDigits 2 t.day ++
    'T' :: Text.paddedDigits 2 t.hour ++ ':' :: Text.paddedDigits 2 t.minute ++
    ':' :: Text.paddedDigits 2 t.second ++ fractionText t.nanos ++ ['Z']

/-- The text of an instant. -/
def text (t : Instant) : String :=
  String.ofList t.chars

/-! ## Reading -/

/-- A number of at most `width` digits, after blanks. -/
def takeNumber? (width : Nat) (cs : List Char) : Option (Nat × List Char) :=
  let field := Text.dropBlanks cs
  let digits := (field.take width).takeWhile Char.isDigit
  if digits = [] then none else some (Text.ofDigits digits, field.drop digits.length)

/-- A year: four digits at most, or a sign and any number of digits. -/
def takeYear? (cs : List Char) : Option (Int × List Char) :=
  match Text.dropBlanks cs with
  | '-' :: rest => do
    guard (rest.head?.any Char.isDigit)
    let (n, rest) ← takeNumber? rest.length rest
    return (-(n : Int), rest)
  | '+' :: rest => do
    guard (rest.head?.any Char.isDigit)
    let (n, rest) ← takeNumber? rest.length rest
    return (n, rest)
  | field => do
    let (n, rest) ← takeNumber? 4 field
    return (n, rest)

/-- A mark, after blanks. -/
def takeMark? (mark : Char) (cs : List Char) : Option (List Char) :=
  match Text.dropBlanks cs with
  | c :: rest => if c = mark then some rest else none
  | [] => none

/-- The letter or blank between a date and a time. -/
def takeDivider? : List Char → Option (List Char)
  | c :: rest => if c = 'T' ∨ c = 't' ∨ c = ' ' then some rest else none
  | [] => none

/-- An optional fraction of a second; digits after the ninth are dropped. -/
def takeNanos? : List Char → Option (Nat × List Char)
  | '.' :: cs =>
    let digits := cs.takeWhile Char.isDigit
    let kept := digits.take 9
    if digits = [] then none
    else some (Text.ofDigits kept * Nat.pow 10 (9 - kept.length), cs.drop digits.length)
  | cs => some (0, cs)

/-- Two digits. -/
def takePair? : List Char → Option (Nat × List Char)
  | tens :: ones :: rest =>
    if tens.isDigit ∧ ones.isDigit then some (Text.ofDigits [tens, ones], rest) else none
  | _ => none

/-- The minutes of an offset with a given sign. -/
def takeOffset? (sign : Int) (cs : List Char) : Option (Int × List Char) := do
  let (hours, rest) ← takePair? cs
  let (minutes, rest) ← takePair? (rest.dropWhile fun c => c == ':' || Text.isBlank c)
  guard (hours < 24 ∧ minutes < 60)
  return (sign * (hours * 60 + minutes : Nat), rest)

/-- The zone of a time: how many minutes it is ahead of UTC. -/
def takeZone? : List Char → Option (Int × List Char)
  | '+' :: rest => takeOffset? 1 rest
  | '-' :: rest => takeOffset? (-1) rest
  | '\u2212' :: rest => takeOffset? (-1) rest
  | 'Z' :: rest => some (0, rest)
  | 'z' :: rest => some (0, rest)
  | u :: t :: c :: rest =>
    if [u.toUpper, t.toUpper, c.toUpper] = ['U', 'T', 'C'] then some (0, rest) else none
  | _ => none

/-- The instant of a date and a time that are `offset` minutes ahead of UTC. -/
def ofLocal? (year : Int) (month day hour minute second nanos : Nat) (offset : Int) :
    Option Instant := do
  guard (Calendar.isDate year month day && Calendar.isTime hour minute second nanos)
  let minutes : Int := (hour * 60 + minute : Nat) - offset
  let (year, month, day) :=
    if minutes < 0 then Calendar.previousDay year month day
    else if 1440 ≤ minutes then Calendar.nextDay year month day
    else (year, month, day)
  let minutes := (minutes % 1440).toNat
  ofFields? year month day (minutes / 60) (minutes % 60) second nanos

/-- The instant that a list of characters writes; blanks may follow it. -/
def readChars? (cs : List Char) : Option Instant := do
  let (year, cs) ← takeYear? cs
  let cs ← takeMark? '-' cs
  let (month, cs) ← takeNumber? 2 cs
  let cs ← takeMark? '-' cs
  let (day, cs) ← takeNumber? 2 cs
  let cs ← takeDivider? cs
  let (hour, cs) ← takeNumber? 2 cs
  let cs ← takeMark? ':' cs
  let (minute, cs) ← takeNumber? 2 cs
  let cs ← takeMark? ':' cs
  let (second, cs) ← takeNumber? 2 cs
  let (nanos, cs) ← takeNanos? cs
  let (offset, cs) ← takeZone? (Text.dropBlanks cs)
  guard (Text.dropBlanks cs = [])
  ofLocal? year month day hour minute second nanos offset

/-- The instant that a text writes. -/
def read? (text : String) : Option Instant :=
  readChars? text.toList

end Instant

end WordMachine
