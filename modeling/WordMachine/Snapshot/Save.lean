import WordMachine.Json.Writer
import WordMachine.Snapshot.Basic

/-! # Saving a machine

A snapshot holds the data stack and the words of the category `USER` with all their
superseded versions. The library installs its own words again wherever a snapshot is
restored.
-/

namespace WordMachine

namespace Snapshot

/-- The stored form of a body. -/
def bodyText : Body → String
  | .native _ => nativeSentinel
  | .compiled tokens => (Json.array (tokens.map Json.ofText)).compact

mutual

/-- The stored form of a word. -/
def ofWord : Word → StoredWord
  | ⟨name, effect, body, immediate, _, _, defined, usage, documentation, history⟩ =>
    { name
      effect
      body := bodyText body
      immediate
      defined
      usage
      history := ofHistory history
      documentation }

/-- The stored form of superseded versions. -/
def ofHistory : List Revision → List StoredRevision
  | [] => []
  | ⟨word, redefined⟩ :: rest => ⟨ofWord word, redefined⟩ :: ofHistory rest

end

end Snapshot

/-- The snapshot of a machine. -/
def Machine.save (m : Machine) : Snapshot :=
  { version := Snapshot.currentVersion
    timestamp := m.clock
    stack := m.data.toList
    dictionary := (m.dictionary.words.filter fun w => w.category == .user).map Snapshot.ofWord
    stackDepth := some (UInt64.ofNat m.config.stackDepth)
    returnStackDepth := some (UInt64.ofNat m.config.returnStackDepth) }

end WordMachine
