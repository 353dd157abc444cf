import WordMachine.Machine.Run

/-! # The library of native words

Installing a part of the library defines its words one after the other, protected. It
fails at the first name that is protected already and keeps what it defined before.
Every installation makes new native behaviours, numbered from a given identity on.
-/

namespace WordMachine

namespace Library

/-- The parts of the library that can be installed. -/
inductive Part where
  | core
  | console
  deriving DecidableEq, Repr

/-- The definition of a library word. -/
def definition (category : Category) (effect documentation : String) (native : Native) :
    Definition :=
  { effect := some effect
    body := .native native
    isProtected := true
    category
    documentation := some documentation }

/-- The core words with their definitions. -/
def coreWords (identity : Nat) : List (String × Definition) :=
  CoreWord.all.mapIdx fun index word =>
    (word.name, definition .core word.effect word.documentation ⟨identity + index, .core word⟩)

/-- The console words with their definitions. -/
def consoleWords (identity : Nat) : List (String × Definition) :=
  ConsoleWord.all.mapIdx fun index word =>
    (word.name,
      definition .standard word.effect word.documentation ⟨identity + index, .console word⟩)

/-- How many native behaviours one installation makes. -/
def size : Nat :=
  CoreWord.all.length + ConsoleWord.all.length

/-- The words of parts of the library, with native behaviours from `identity` on. -/
def words (identity : Nat) (parts : List Part) : List (String × Definition) :=
  parts.flatMap fun
    | .core => coreWords identity
    | .console => consoleWords (identity + CoreWord.all.length)

/-- The whole library: the core words, then the console words. -/
def full : List Part :=
  [.core, .console]

/-- Installs parts of the library. -/
def install (identity : Nat) (parts : List Part) (m : Machine) : Outcome :=
  m.defineAll (words identity parts)

/-- A machine with the whole library. -/
def machine (config : Config) (clock : Instant) : Except Error Machine :=
  let outcome := install 0 full (.ofConfig config clock)
  match outcome.error with
  | none => .ok outcome.machine
  | some error => .error error

end Library

end WordMachine
