import WordMachine.Error

/-! # Packed bytes

The elements of the binary form of records: numbers in groups of seven bits, the lowest
first, texts and lists behind their lengths, and choices behind a tag. Writing gives a
list of bytes; reading takes bytes from the front of a list and leaves the rest.
-/

namespace WordMachine

namespace Packed

/-- A computation that takes bytes from the front of a list. -/
abbrev Reader := StateT (List UInt8) (Except PackedFault)

/-! ## Numbers -/

/-- A number in at most `groups + 1` groups of seven bits; all but the last are marked. -/
def groupsOf : (groups : Nat) → Nat → List UInt8
  | 0, n => [UInt8.ofNat n]
  | groups + 1, n =>
    if n < 128 then [UInt8.ofNat n] else UInt8.ofNat (n % 128 + 128) :: groupsOf groups (n / 128)

/-- The number in at most `groups` groups, of which the last is at most `last` if all of
them are used. -/
def takeGroups (last : Nat) : (groups : Nat) → List UInt8 → Except PackedFault (Nat × List UInt8)
  | 0, _ => .error .badVarint
  | _ + 1, [] => .error .endOfInput
  | groups + 1, byte :: rest =>
    if byte.toNat < 128 then
      if groups = 0 ∧ last < byte.toNat then .error .badVarint else .ok (byte.toNat, rest)
    else
      match takeGroups last groups rest with
      | .ok (high, rest) => .ok (byte.toNat - 128 + 128 * high, rest)
      | .error fault => .error fault

/-- A length or a count below `2 ^ 64`. -/
def ofNat (n : Nat) : List UInt8 :=
  groupsOf 9 n

/-- Reads a length or a count. -/
def takeNat : Reader Nat :=
  takeGroups 1 10

/-- Reads the number of a choice, which is below `2 ^ 32`. -/
def takeTag : Reader Nat :=
  takeGroups 15 5

/-- A number of 64 bits. -/
def ofWord64 (n : UInt64) : List UInt8 :=
  ofNat n.toNat

/-- Reads a number of 64 bits. -/
def takeWord64 : Reader UInt64 :=
  UInt64.ofNat <$> takeNat

/-! ## Bytes -/

/-- Reads one byte. -/
def takeByte : Reader UInt8
  | [] => .error .endOfInput
  | byte :: rest => .ok (byte, rest)

/-- Reads a given number of bytes. -/
def takeBytes (count : Nat) : Reader (List UInt8) := fun bytes =>
  if bytes.length < count then .error .endOfInput else .ok (bytes.take count, bytes.drop count)

/-- The lowest `count` bytes of a number, the lowest first. -/
def littleEndian : (count n : Nat) → List UInt8
  | 0, _ => []
  | count + 1, n => UInt8.ofNat (n % 256) :: littleEndian count (n / 256)

/-- The number that bytes write, the lowest first. -/
def ofLittleEndian : List UInt8 → Nat
  | [] => 0
  | byte :: rest => byte.toNat + 256 * ofLittleEndian rest

/-! ## Elements -/

/-- A floating-point number as its eight bytes. -/
def ofFloat (x : Float) : List UInt8 :=
  littleEndian 8 x.toBits.toNat

/-- Reads a floating-point number. -/
def takeFloat : Reader Float := do
  let bytes ← takeBytes 8
  return Float.ofBits (UInt64.ofNat (ofLittleEndian bytes))

/-- A truth value as one byte. -/
def ofBool (b : Bool) : List UInt8 :=
  [if b then 1 else 0]

/-- Reads a truth value. -/
def takeBool : Reader Bool := do
  let byte ← takeByte
  if byte = 0 then return false
  else if byte = 1 then return true
  else throw .badBool

/-- A text as its length in bytes and its bytes. -/
def ofText (text : String) : List UInt8 :=
  ofNat text.utf8ByteSize ++ text.toByteArray.data.toList

/-- Reads a text. -/
def takeText : Reader String := do
  let size ← takeNat
  let bytes ← takeBytes size
  match String.fromUTF8? ⟨bytes.toArray⟩ with
  | some text => return text
  | none => throw .badText

/-- A value that may be absent, behind one byte. -/
def ofOption {α : Type} (write : α → List UInt8) : Option α → List UInt8
  | none => [0]
  | some a => 1 :: write a

/-- Reads a value that may be absent. -/
def takeOption {α : Type} (read : Reader α) : Reader (Option α) := do
  let byte ← takeByte
  if byte = 0 then return none
  else if byte = 1 then some <$> read
  else throw .badOption

/-- A list as its length and its elements. -/
def ofList {α : Type} (write : α → List UInt8) (items : List α) : List UInt8 :=
  ofNat items.length ++ items.flatMap write

/-- Reads a given number of elements. -/
def takeMany {α : Type} (read : Reader α) : (count : Nat) → Reader (List α)
  | 0 => return []
  | count + 1 => do
    let item ← read
    let items ← takeMany read count
    return item :: items

/-- Reads a list. -/
def takeList {α : Type} (read : Reader α) : Reader (List α) := do
  let count ← takeNat
  takeMany read count

end Packed

end WordMachine
