import WordMachine.Console
import WordMachine.Core
import WordMachine.Instant

/-! # Words

A word is a named behaviour: either a native action or a list of tokens. It records
when it was defined, how often it ran and which versions it superseded. A definition
is a word that has no name yet and may leave most of it open.
-/

namespace WordMachine

/-- What a host can put behind a word: it acts through the machine's own operations. -/
inductive HostAction where
  | push (v : Value)
  | countWords
  | fail (message : String)
  | run (source : String)
  | forget (name : String)
  | define (name : String) (tokens : List String)
  | noop
  deriving DecidableEq

/-- What a native word does. -/
inductive Action where
  | core (word : CoreWord)
  | console (word : ConsoleWord)
  | host (action : HostAction)
  deriving DecidableEq

/-- A native behaviour. Copies of one behaviour share its identity, and two behaviours
that were made apart have different ones. -/
structure Native where
  identity : Nat
  action : Action
  deriving DecidableEq

/-- The behaviour of a word. -/
inductive Body where
  | native (native : Native)
  | compiled (tokens : List String)
  deriving DecidableEq

namespace Body

/-- Native bodies agree if one is a copy of the other. -/
def agrees : Body → Body → Bool
  | .native a, .native b => a.identity == b.identity
  | .compiled a, .compiled b => a == b
  | _, _ => false

end Body

/-- Where a word comes from. -/
inductive Category where
  | core
  | standard
  | user
  deriving DecidableEq, Repr

/-- The name of a category. -/
def Category.name : Category → String
  | .core => "CORE"
  | .standard => "STANDARD"
  | .user => "USER"

mutual

/-- A word of a dictionary; the versions that it superseded stand oldest first. -/
structure Word where
  name : String
  effect : String
  body : Body
  immediate : Bool
  isProtected : Bool
  category : Category
  defined : Instant
  usage : UInt64
  documentation : Option String
  history : List Revision

/-- A superseded version of a word and the time at which it was replaced. -/
structure Revision where
  word : Word
  redefined : Instant

end

/-- What a word records about itself beside its behaviour. -/
structure Metadata where
  defined : Instant
  usage : UInt64
  documentation : Option String
  history : List Revision

/-- The records of a word that is defined at a given time for the first time. -/
def Metadata.fresh (now : Instant) : Metadata :=
  ⟨now, 0, none, []⟩

namespace Word

/-- The records of a word. -/
def metadata (w : Word) : Metadata :=
  ⟨w.defined, w.usage, w.documentation, w.history⟩

/-- The word without the versions that it superseded. -/
def withoutHistory (w : Word) : Word :=
  { w with history := [] }

/-- The word after one more use. The count has 64 bits and starts over after its last value. -/
def used (w : Word) : Word :=
  { w with usage := w.usage + 1 }

mutual

/-- Words agree if their bodies do and all else is equal, superseded versions included. -/
def agrees (a b : Word) : Bool :=
  match a, b with
  | ⟨name, effect, body, immediate, isProtected, category, defined, usage, documentation, history⟩,
    ⟨name', effect', body', immediate', isProtected', category', defined', usage',
      documentation', history'⟩ =>
    name == name' && effect == effect' && body.agrees body' && immediate == immediate' &&
      isProtected == isProtected' && category == category' && defined == defined' &&
      usage == usage' && documentation == documentation' && historiesAgree history history'

/-- Histories agree if their versions do, one by one. -/
def historiesAgree : List Revision → List Revision → Bool
  | [], [] => true
  | ⟨word, redefined⟩ :: rest, ⟨word', redefined'⟩ :: rest' =>
    agrees word word' && redefined == redefined' && historiesAgree rest rest'
  | _, _ => false

end

end Word

/-- The effect of a word that declares none. -/
def defaultEffect : String := "( -- )"

/-- A word to be: what is left open gets a default when it is defined. -/
structure Definition where
  effect : Option String := none
  body : Body := .compiled []
  immediate : Bool := false
  isProtected : Bool := false
  category : Category := .user
  documentation : Option String := none
  metadata : Option Metadata := none

namespace Definition

/-- The definition of a word by tokens alone. -/
def ofTokens (tokens : List String) : Definition :=
  { body := .compiled tokens }

/-- The records that a definition gives its word: its own, or fresh ones. A
documentation beside the records replaces theirs. -/
def records (d : Definition) (now : Instant) : Metadata :=
  let base := d.metadata.getD (.fresh now)
  { base with documentation := d.documentation <|> base.documentation }

/-- The word that a definition makes under a name. -/
def toWord (d : Definition) (name : String) (now : Instant) : Word :=
  let records := d.records now
  { name
    effect := d.effect.getD defaultEffect
    body := d.body
    immediate := d.immediate
    isProtected := d.isProtected
    category := d.category
    defined := records.defined
    usage := records.usage
    documentation := records.documentation
    history := records.history }

/-- The definition that makes a word again, with its records. -/
def ofWord (w : Word) : Definition :=
  { effect := some w.effect
    body := w.body
    immediate := w.immediate
    isProtected := w.isProtected
    category := w.category
    metadata := some w.metadata }

end Definition

end WordMachine
