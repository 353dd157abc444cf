import WordMachine.Machine.Basic

/-! # Snapshots

What of a machine outlives it: its data stack, the words that users defined and the
bounds of its stacks. Native behaviour cannot be stored; a sentinel stands in its place.
-/

namespace WordMachine

mutual

/-- A stored word. Its body is the sentinel for native behaviour or the JSON text of its
tokens; the versions that it superseded stand oldest first. -/
structure StoredWord where
  name : String
  effect : String
  body : String
  immediate : Bool
  defined : Instant
  usage : UInt64
  history : List StoredRevision
  documentation : Option String

/-- A stored version of a word and the time at which it was replaced. -/
structure StoredRevision where
  word : StoredWord
  redefined : Instant

end

/-- A stored machine. -/
structure Snapshot where
  version : String
  timestamp : Instant
  stack : List Value
  dictionary : List StoredWord
  stackDepth : Option UInt64
  returnStackDepth : Option UInt64

namespace Snapshot

/-- The version of the snapshots that this library writes and restores. -/
def currentVersion : String := "0.1.0"

/-- The body of a native word. -/
def nativeSentinel : String := "__NATIVE__"

/-- The bounds of a machine that is made from a snapshot. -/
def config (s : Snapshot) : Config :=
  { Config.default with
    stackDepth := (s.stackDepth.map UInt64.toNat).getD Config.default.stackDepth
    returnStackDepth := (s.returnStackDepth.map UInt64.toNat).getD Config.default.returnStackDepth }

end Snapshot

end WordMachine
