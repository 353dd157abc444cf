import WordMachine.Machine.Basic

/-! # Running tokens

A numeral pushes its number; any other token executes the word of that name, which acts
natively or dispatches its own tokens in turn. Words may call each other without end, so
every run has a bound on how deep calls nest. `none` says that the bound was reached: it
is no result of the machine, and a larger bound may give one.
-/

namespace WordMachine

namespace ConsoleWord

/-- Runs a console word: the stack changes first, then the text is written. -/
def run (word : ConsoleWord) (m : Machine) : Outcome :=
  match word.text m.dictionary.names m.data with
  | .ok text stack => { m with data := stack }.write text
  | .error error stack => { m with data := stack }.failed error

end ConsoleWord

namespace Machine

/-- A way to run a list of tokens one level deeper. -/
abbrev Call := Machine → List String → Option Outcome

/-- Runs the action of a host. -/
def hostActWith (call : Call) (m : Machine) : HostAction → Option Outcome
  | .push v => some (m.push v)
  | .countWords => some (m.push (.number (Float.ofNat m.dictionary.size)))
  | .fail message => some (m.failed (.controlFlow message))
  | .run source => call m (Text.words source)
  | .forget name => some (m.forget name)
  | .define name tokens => some (m.define name (.ofTokens tokens))
  | .noop => some m.done

/-- Runs a native action. -/
def actWith (call : Call) (m : Machine) : Action → Option Outcome
  | .core word => some (m.onStack word.run)
  | .console word => some (word.run m)
  | .host action => hostActWith call m action

/-- A compiled body starts. -/
def enter (m : Machine) : Machine :=
  { m with callDepth := m.callDepth + 1 }

/-- A compiled body ends, also when it failed. -/
def leave (m : Machine) : Machine :=
  { m with callDepth := m.callDepth - 1 }

/-- Runs a body. -/
def executeBodyWith (call : Call) (m : Machine) : Body → Option Outcome
  | .native native => actWith call m native.action
  | .compiled tokens => (call m.enter tokens).map fun o => { o with machine := o.machine.leave }

/-- Counts a use of the word of a name and runs its body. -/
def executeWith (call : Call) (m : Machine) (name : String) : Option Outcome :=
  match m.dictionary.resolve? name with
  | none => some (m.failed (.undefinedWord name))
  | some (body, dictionary) => executeBodyWith call { m with dictionary } body

/-- Records a token and does what it says. -/
def dispatchWith (call : Call) (m : Machine) (token : String) : Option Outcome :=
  match Token.classify token with
  | .number x => some ((m.record token).push (.number x))
  | .word name => executeWith call (m.record token) name

/-- Dispatches tokens in order and stops at the first that fails. -/
def runTokensWith (call : Call) (m : Machine) : List String → Option Outcome
  | [] => some m.done
  | token :: rest =>
    (dispatchWith call m token).bind fun o => o.andThen fun next => runTokensWith call next rest

/-- Runs tokens while at most `bound - 1` further levels of calls nest below them. -/
def callWithin : (bound : Nat) → Call
  | 0 => fun _ _ => none
  | bound + 1 => runTokensWith (callWithin bound)

/-- Dispatches a token; calls nest at most `bound` deep. -/
def dispatch (bound : Nat) (m : Machine) (token : String) : Option Outcome :=
  dispatchWith (callWithin bound) m token

/-- Runs tokens; calls nest at most `bound` deep. -/
def runTokens (bound : Nat) (m : Machine) (tokens : List String) : Option Outcome :=
  runTokensWith (callWithin bound) m tokens

/-- Runs the fields of a text as tokens; calls nest at most `bound` deep. -/
def run (bound : Nat) (m : Machine) (source : String) : Option Outcome :=
  m.runTokens bound (Text.words source)

/-- Executes the word of a name; calls nest at most `bound` deep. -/
def execute (bound : Nat) (m : Machine) (name : String) : Option Outcome :=
  executeWith (callWithin bound) m name

/-- Executes a word that need not be in the dictionary; calls nest at most `bound`
deep. -/
def executeWord (bound : Nat) (m : Machine) (word : Word) : Option Outcome :=
  executeBodyWith (callWithin bound) m word.body

end Machine

end WordMachine
