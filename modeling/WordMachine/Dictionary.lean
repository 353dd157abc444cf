import WordMachine.Word

/-! # Dictionaries

A dictionary is an ordered collection of words, at most one for each name, in the order
in which the names were introduced. A redefinition keeps the place of its name and
archives the word it replaces; a protected word can be neither redefined nor forgotten.
-/

namespace WordMachine

/-- The words in order, and how many superseded versions a redefined word keeps. -/
structure Dictionary where
  words : List Word
  historyLimit : Nat

namespace Dictionary

/-- How many superseded versions are kept unless said otherwise. -/
def defaultHistoryLimit : Nat := 32

/-- The dictionary without words. -/
def empty (historyLimit : Nat) : Dictionary :=
  ⟨[], historyLimit⟩

/-- The word with a name. -/
def find? (d : Dictionary) (name : String) : Option Word :=
  d.words.find? fun w => w.name == name

/-- Whether a name is defined. -/
def contains (d : Dictionary) (name : String) : Bool :=
  (d.find? name).isSome

/-- How many words there are. -/
def size (d : Dictionary) : Nat :=
  d.words.length

/-- The names in order. -/
def names (d : Dictionary) : List String :=
  d.words.map Word.name

/-- The names of a category in order. -/
def namesIn (d : Dictionary) (category : Category) : List String :=
  (d.words.filter fun w => w.category == category).map Word.name

/-- The words with the word of one name replaced. -/
def replace (words : List Word) (name : String) (f : Word → Word) : List Word :=
  words.map fun w => if w.name == name then f w else w

/-- The newest versions of a history, as many as a limit allows. -/
def newest (limit : Nat) (history : List Revision) : List Revision :=
  history.drop (history.length - limit)

/-- The word that replaces `old`: the old word joins the history, which continues the old
word's own unless the definition came with records. -/
def supersede (limit : Nat) (now : Instant) (d : Definition) (old : Word) : Word :=
  let word := d.toWord old.name now
  let inherited := if d.metadata.isNone then old.history else word.history
  { word with history := newest limit (inherited ++ [⟨old.withoutHistory, now⟩]) }

/-- Defines a name. A new name goes last, a known one keeps its place. -/
def define (d : Dictionary) (now : Instant) (name : String) (definition : Definition) :
    Except Error Dictionary :=
  if name = "" then .error (.invalidName name)
  else
    match d.find? name with
    | none => .ok { d with words := d.words ++ [definition.toWord name now] }
    | some old =>
      if old.isProtected then .error (.protectedWord name)
      else .ok { d with words := replace d.words name (supersede d.historyLimit now definition) }

/-- Forgets a name and gives back its word. -/
def forget (d : Dictionary) (name : String) : Except Error (Word × Dictionary) :=
  match d.find? name with
  | none => .error (.unknownWord name)
  | some word =>
    if word.isProtected then .error (.protectedWord name)
    else .ok (word, { d with words := d.words.filter fun w => w.name != name })

/-- The body behind a name, and the dictionary in which the use is counted. -/
def resolve? (d : Dictionary) (name : String) : Option (Body × Dictionary) :=
  (d.find? name).map fun word => (word.body, { d with words := replace d.words name Word.used })

/-- Defines words again, one after the other. -/
def defineAll (d : Dictionary) (now : Instant) : List Word → Except Error Dictionary
  | [] => .ok d
  | w :: ws =>
    match d.define now w.name (.ofWord w) with
    | .ok next => next.defineAll now ws
    | .error error => .error error

/-- A copy, made by defining every word again in an empty dictionary. -/
def duplicate (d : Dictionary) (now : Instant) : Except Error Dictionary :=
  (empty d.historyLimit).defineAll now d.words

end Dictionary

end WordMachine
