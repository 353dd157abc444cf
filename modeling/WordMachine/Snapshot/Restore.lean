import WordMachine.Json.Decode
import WordMachine.Json.Reader
import WordMachine.Snapshot.Basic

/-! # Restoring a snapshot

A restore first checks the whole snapshot against the machine and only then replaces the
data stack and defines the stored words. A word with the native sentinel for a body is
left out, and so is a superseded version with everything below it.
-/

namespace WordMachine

namespace Snapshot

/-- The body of a stored word with a given name; none for native behaviour. -/
def readBody (name body : String) : Except Error (Option Body) :=
  if body = nativeSentinel then .ok none
  else
    match (Json.read? body).bind (Json.list? Json.text?) with
    | some tokens => .ok (some (.compiled tokens))
    | none => .error (.corruptBody name)

mutual

/-- The records of a stored word. -/
def readMetadata : StoredWord → Except Error Metadata
  | ⟨_, _, _, _, defined, usage, history, documentation⟩ =>
    match readHistory history with
    | .ok history => .ok ⟨defined, usage, documentation, history⟩
    | .error error => .error error

/-- The superseded versions of a stored word, without native ones. -/
def readHistory : List StoredRevision → Except Error (List Revision)
  | [] => .ok []
  | ⟨word, redefined⟩ :: rest =>
    match readBody word.name word.body with
    | .error error => .error error
    | .ok none => readHistory rest
    | .ok (some body) =>
      match readMetadata word with
      | .error error => .error error
      | .ok metadata =>
        match readHistory rest with
        | .error error => .error error
        | .ok revisions =>
          .ok (⟨{ name := word.name
                  effect := word.effect
                  body
                  immediate := word.immediate
                  isProtected := false
                  category := .user
                  defined := metadata.defined
                  usage := metadata.usage
                  documentation := metadata.documentation
                  history := metadata.history }, redefined⟩ :: revisions)

end

/-- What a stored word defines in a machine with a given dictionary; none for native
behaviour. -/
def readWord (dictionary : Dictionary) (w : StoredWord) :
    Except Error (Option (String × Definition)) :=
  match readBody w.name w.body with
  | .error error => .error error
  | .ok none => .ok none
  | .ok (some body) =>
    if w.name = "" then .error (.invalidName w.name)
    else if (dictionary.find? w.name).any Word.isProtected then .error (.protectedWord w.name)
    else
      match readMetadata w with
      | .error error => .error error
      | .ok metadata =>
        .ok (some (w.name,
          { effect := some w.effect, body, immediate := w.immediate, metadata := some metadata }))

/-- What stored words define, in order. -/
def readWords (dictionary : Dictionary) : List StoredWord →
    Except Error (List (String × Definition))
  | [] => .ok []
  | w :: ws =>
    match readWord dictionary w with
    | .error error => .error error
    | .ok definition =>
      match readWords dictionary ws with
      | .error error => .error error
      | .ok definitions => .ok (definition.toList ++ definitions)

end Snapshot

namespace Machine

/-- Replaces the data stack and defines words. -/
def replaceState (m : Machine) (stack : List Value) (definitions : List (String × Definition)) :
    Outcome :=
  let o := { m with data := m.data.clear }.onStack (StackM.pushAll stack)
  match o.error with
  | none => o.machine.defineAll definitions
  | some _ => o

/-- Restores a snapshot. -/
def restore (m : Machine) (s : Snapshot) : Outcome :=
  if s.version ≠ Snapshot.currentVersion then m.failed (.unsupportedVersion s.version)
  else if m.data.limit < s.stack.length then m.failed (.stackOverflow m.data.name m.data.limit)
  else
    match Snapshot.readWords m.dictionary s.dictionary with
    | .error error => m.failed error
    | .ok definitions => m.replaceState s.stack definitions

/-- A machine with the bounds of a snapshot, the words that `install` defines and the
snapshot restored. -/
def ofSnapshot (clock : Instant) (install : Machine → Outcome) (s : Snapshot) :
    Except Error Machine :=
  let installed := install (.ofConfig s.config clock)
  match installed.error with
  | some error => .error error
  | none =>
    let restored := installed.machine.restore s
    match restored.error with
    | some error => .error error
    | none => .ok restored.machine

end Machine

end WordMachine
