import WordMachine.Packed
import WordMachine.Snapshot.Basic

/-! # Snapshots as bytes

The packed forms of values and snapshots: the fields one after the other without names.
An instant is packed as its text and a handle as its kind. What follows a packed
snapshot is not looked at.
-/

namespace WordMachine

namespace Value

/-- The packed form of a value: the number of its type, then its content. -/
def pack : Value → List UInt8
  | .number x => 0 :: Packed.ofFloat x
  | .text s => 1 :: Packed.ofText s
  | .bool b => 2 :: Packed.ofBool b
  | .handle h => 3 :: Packed.ofText h.kind
  | .nil => [4]

/-- Reads a value; a handle is detached. -/
def unpack : Packed.Reader Value := do
  match ← Packed.takeTag with
  | 0 => return .number (← Packed.takeFloat)
  | 1 => return .text (← Packed.takeText)
  | 2 => return .bool (← Packed.takeBool)
  | 3 => return .handle ⟨← Packed.takeText, none⟩
  | 4 => return .nil
  | _ => throw .badContent

/-- The value of packed bytes. -/
def ofBytes (bytes : List UInt8) : Except Error Value :=
  match unpack bytes with
  | .ok (v, _) => .ok v
  | .error fault => .error (.malformedBytes fault)

end Value

namespace Snapshot

/-- The packed form of an instant. -/
def packInstant (t : Instant) : List UInt8 :=
  Packed.ofText t.text

/-- Reads an instant. -/
def unpackInstant : Packed.Reader Instant := do
  match Instant.read? (← Packed.takeText) with
  | some t => return t
  | none => throw .badContent

mutual

/-- The packed form of a stored word. -/
def packWord : StoredWord → List UInt8
  | ⟨name, effect, body, immediate, defined, usage, history, documentation⟩ =>
    Packed.ofText name ++ Packed.ofText effect ++ Packed.ofText body ++ Packed.ofBool immediate ++
      packInstant defined ++ Packed.ofWord64 usage ++
      Packed.ofNat history.length ++ packHistory history ++
      Packed.ofOption Packed.ofText documentation

/-- The packed forms of superseded versions. -/
def packHistory : List StoredRevision → List UInt8
  | [] => []
  | ⟨word, redefined⟩ :: rest => packWord word ++ packInstant redefined ++ packHistory rest

end

/-- Reads a stored word whose versions nest less than `levels` deep. -/
def unpackWord : (levels : Nat) → Packed.Reader StoredWord
  | 0 => throw .endOfInput
  | levels + 1 => do
    let name ← Packed.takeText
    let effect ← Packed.takeText
    let body ← Packed.takeText
    let immediate ← Packed.takeBool
    let defined ← unpackInstant
    let usage ← Packed.takeWord64
    let history ← Packed.takeList do
      let word ← unpackWord levels
      let redefined ← unpackInstant
      return (⟨word, redefined⟩ : StoredRevision)
    let documentation ← Packed.takeOption Packed.takeText
    return ⟨name, effect, body, immediate, defined, usage, history, documentation⟩

/-- The packed form of a snapshot. -/
def pack (s : Snapshot) : List UInt8 :=
  Packed.ofText s.version ++ packInstant s.timestamp ++ Packed.ofList Value.pack s.stack ++
    Packed.ofList packWord s.dictionary ++ Packed.ofOption Packed.ofWord64 s.stackDepth ++
    Packed.ofOption Packed.ofWord64 s.returnStackDepth

/-- Reads a snapshot whose versions nest less than `levels` deep. -/
def unpack (levels : Nat) : Packed.Reader Snapshot := do
  let version ← Packed.takeText
  let timestamp ← unpackInstant
  let stack ← Packed.takeList Value.unpack
  let dictionary ← Packed.takeList (unpackWord levels)
  let stackDepth ← Packed.takeOption Packed.takeWord64
  let returnStackDepth ← Packed.takeOption Packed.takeWord64
  return ⟨version, timestamp, stack, dictionary, stackDepth, returnStackDepth⟩

/-- The snapshot at the front of bytes. A stored word takes at least one byte, so versions
nest less deep than there are bytes. -/
def ofBytes (bytes : List UInt8) : Except Error Snapshot :=
  match unpack (bytes.length + 1) bytes with
  | .ok (s, _) => .ok s
  | .error fault => .error (.malformedBytes fault)

end Snapshot

end WordMachine
