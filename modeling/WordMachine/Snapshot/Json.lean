import WordMachine.Json.Decode
import WordMachine.Json.Reader
import WordMachine.Json.Writer
import WordMachine.Snapshot.Basic

/-! # Snapshots as text

The JSON forms of values, snapshots and configurations. A number that JSON cannot write
stands as a string, and a handle is stored by its kind alone. Reading counts the levels
of arrays and objects that remain.
-/

namespace WordMachine

namespace Value

/-- The JSON form of a number. -/
def numberJson (x : Float) : Json :=
  if Binary64.isFinite x then .number (Layout.stored.finiteText x)
  else .ofText (Layout.stored.text x)

/-- The JSON form of a value. -/
def toJson : Value → Json
  | .number x => .ofMembers [("Number", numberJson x)]
  | .text s => .ofMembers [("Text", .ofText s)]
  | .bool b => .ofMembers [("Bool", .bool b)]
  | .handle h => .ofMembers [("Handle", .ofMembers [("kind", .ofText h.kind)])]
  | .nil => .ofText "Nil"

/-- The number of a JSON form. -/
def numberOfJson? : Json → Option Float
  | .string tag =>
    if tag = some "inf" then some (Binary64.ofMagnitude false Binary64.infinity)
    else if tag = some "-inf" then some (Binary64.ofMagnitude true Binary64.infinity)
    else if tag = some "NaN" then some Binary64.nan
    else none
  | j => j.float?

/-- The handle of a JSON form with `depth` levels left; it is detached. -/
def handleOfJson? : (depth : Nat) → Json → Option Handle
  | 0, _ => none
  | _ + 1, j => do
    let [kind] ← Json.fields? ["kind"] j | none
    return ⟨← Json.required? Json.text? kind, none⟩

/-- The value of a JSON form with `depth` levels left. -/
def ofJson? : (depth : Nat) → Json → Option Value
  | _, .string tag => if tag = some "Nil" then some .nil else none
  | depth + 1, .object [(some name, content)] =>
    match name with
    | "Number" => (numberOfJson? content).map .number
    | "Text" => content.text?.map .text
    | "Bool" => content.bool?.map .bool
    | "Handle" => (handleOfJson? depth content).map .handle
    | "Nil" =>
      match content with
      | .null => some .nil
      | _ => none
    | _ => none
  | _, _ => none

/-- The JSON text of a value, on one line. -/
def toText (v : Value) : String :=
  v.toJson.compact

/-- The value of a JSON text. -/
def ofText (text : String) : Except Error Value :=
  match (Json.read? text).bind (ofJson? Json.maximalDepth) with
  | some v => .ok v
  | none => .error .malformedText

end Value

namespace Config

/-- The names of the fields of a configuration. -/
def fieldNames : List String :=
  ["stackDepth", "returnStackDepth", "historyLimit", "traceLimit"]

/-- The configuration of a JSON form; what is missing has its default. -/
def ofJson? (j : Json) : Option Config := do
  let [stackDepth, returnStackDepth, historyLimit, traceLimit] ← j.fields? fieldNames | none
  let bound (field : Option Json) (default : Nat) : Option Nat :=
    Json.optional? (fun value => value.word64?.map UInt64.toNat) default field
  return ⟨← bound stackDepth Config.default.stackDepth,
    ← bound returnStackDepth Config.default.returnStackDepth,
    ← bound historyLimit Config.default.historyLimit,
    ← bound traceLimit Config.default.traceLimit⟩

/-- The configuration of a JSON text. -/
def ofText (text : String) : Except Error Config :=
  match (Json.read? text).bind ofJson? with
  | some config => .ok config
  | none => .error .malformedText

end Config

namespace Snapshot

/-- The instant of a JSON form. -/
def instantOfJson? (j : Json) : Option Instant :=
  j.text?.bind Instant.read?

/-! ## Words -/

mutual

/-- The JSON form of a stored word. -/
def wordJson : StoredWord → Json
  | ⟨name, effect, body, immediate, defined, usage, history, documentation⟩ =>
    .ofMembers
      [("name", .ofText name),
        ("stackEffect", .ofText effect),
        ("body", .ofText body),
        ("immediate", .bool immediate),
        ("metadata",
          .ofMembers
            [("defined", .ofText defined.text),
              ("usageCount", .ofNat usage.toNat),
              ("previousDefinitions", .array (historyJson history)),
              ("documentation", .ofOption .ofText documentation)])]

/-- The JSON forms of superseded versions. -/
def historyJson : List StoredRevision → List Json
  | [] => []
  | ⟨word, redefined⟩ :: rest =>
    .ofMembers [("word", wordJson word), ("redefinedAt", .ofText redefined.text)] ::
      historyJson rest

end

/-- What a stored word records about itself. -/
structure StoredMetadata where
  defined : Instant
  usage : UInt64
  history : List StoredRevision
  documentation : Option String

mutual

/-- The stored word of a JSON form with `depth` levels left. -/
def wordOfJson? : (depth : Nat) → Json → Option StoredWord
  | 0, _ => none
  | depth + 1, j => do
    let [name, effect, body, immediate, metadata] ←
      j.fields? ["name", "stackEffect", "body", "immediate", "metadata"] | none
    let name ← Json.required? Json.text? name
    let effect ← Json.required? Json.text? effect
    let body ← Json.required? Json.text? body
    let immediate ← Json.required? Json.bool? immediate
    let records ← Json.required? (metadataOfJson? depth) metadata
    return ⟨name, effect, body, immediate, records.defined, records.usage, records.history,
      records.documentation⟩

/-- The records of a stored word from a JSON form with `depth` levels left. -/
def metadataOfJson? : (depth : Nat) → Json → Option StoredMetadata
  | 0, _ => none
  | depth + 1, j => do
    let [defined, usage, history, documentation] ←
      j.fields? ["defined", "usageCount", "previousDefinitions", "documentation"] | none
    let defined ← Json.required? instantOfJson? defined
    let usage ← Json.required? Json.word64? usage
    let history ← Json.optional? (historyOfJson? depth) [] history
    let documentation ← Json.optional? (Json.orNull? Json.text?) none documentation
    return ⟨defined, usage, history, documentation⟩

/-- The superseded versions of a JSON form with `depth` levels left. -/
def historyOfJson? : (depth : Nat) → Json → Option (List StoredRevision)
  | 0, _ => none
  | depth + 1, j => Json.list? (revisionOfJson? depth) j

/-- The superseded version of a JSON form with `depth` levels left. -/
def revisionOfJson? : (depth : Nat) → Json → Option StoredRevision
  | 0, _ => none
  | depth + 1, j => do
    let [word, redefined] ← j.fields? ["word", "redefinedAt"] | none
    let word ← Json.required? (wordOfJson? depth) word
    let redefined ← Json.required? instantOfJson? redefined
    return ⟨word, redefined⟩

end

/-! ## Snapshots -/

/-- The JSON form of a bound that may be absent. -/
def boundJson (bound : Option UInt64) : Json :=
  .ofOption (fun n => .ofNat n.toNat) bound

/-- The JSON form of a snapshot. -/
def toJson (s : Snapshot) : Json :=
  .ofMembers
    [("version", .ofText s.version),
      ("timestamp", .ofText s.timestamp.text),
      ("stack", .array (s.stack.map Value.toJson)),
      ("dictionary", .array (s.dictionary.map wordJson)),
      ("config",
        .ofMembers
          [("stackDepth", boundJson s.stackDepth),
            ("returnStackDepth", boundJson s.returnStackDepth)])]

/-- The bounds of a snapshot from a JSON form. -/
def boundsOfJson? (j : Json) : Option (Option UInt64 × Option UInt64) := do
  let [stackDepth, returnStackDepth] ← j.fields? ["stackDepth", "returnStackDepth"] | none
  let stackDepth ← Json.optional? (Json.orNull? Json.word64?) none stackDepth
  let returnStackDepth ← Json.optional? (Json.orNull? Json.word64?) none returnStackDepth
  return (stackDepth, returnStackDepth)

/-- The snapshot of a JSON form. A value of the stack and a word of the dictionary stand
at the third level. -/
def ofJson? (j : Json) : Option Snapshot := do
  let [version, timestamp, stack, dictionary, config] ←
    j.fields? ["version", "timestamp", "stack", "dictionary", "config"] | none
  let version ← Json.required? Json.text? version
  let timestamp ← Json.required? instantOfJson? timestamp
  let stack ← Json.required? (Json.list? (Value.ofJson? (Json.maximalDepth - 2))) stack
  let dictionary ← Json.required? (Json.list? (wordOfJson? (Json.maximalDepth - 2))) dictionary
  let bounds ← Json.required? boundsOfJson? config
  return ⟨version, timestamp, stack, dictionary, bounds.1, bounds.2⟩

/-- The characters of the JSON text of a snapshot. -/
def chars (s : Snapshot) : List Char :=
  s.toJson.prettyChars 0

/-- The snapshot of the characters of a JSON text. -/
def ofChars? (cs : List Char) : Option Snapshot :=
  (Json.readChars? cs).bind ofJson?

/-- The JSON text of a snapshot. -/
def toText (s : Snapshot) : String :=
  String.ofList s.chars

/-- The snapshot of a JSON text. -/
def ofText (text : String) : Except Error Snapshot :=
  match ofChars? text.toList with
  | some s => .ok s
  | none => .error .malformedText

end Snapshot

end WordMachine
