import WordMachine.Machine.Run
import WordMachine.Source.Item

/-! # Loading a source

Loading takes one item after the other from the tokens of a source and does each before it
takes the next. It stops at the first item that fails and at tokens that start no item.
-/

namespace WordMachine

namespace Source

/-- What stopped a load. -/
inductive Cause where
  | syntaxFault (fault : Fault)
  | machine (error : Error)
  deriving DecidableEq

/-- What stopped a load, and at which token. -/
structure LoadError where
  cause : Cause
  line : Nat
  column : Nat
  deriving DecidableEq

namespace LoadError

/-- The text of a load error. -/
def message (e : LoadError) : String :=
  Text.natText e.line ++ ":" ++ Text.natText e.column ++ ": " ++
    match e.cause with
    | .syntaxFault fault => fault.message
    | .machine error => error.message

/-- The tag of a load error. -/
def tag (e : LoadError) : String :=
  match e.cause with
  | .syntaxFault _ => "syntax"
  | .machine error => error.tag

/-- An error of the machine at a token. -/
def ofError (token : SourceToken) (error : Error) : LoadError :=
  ⟨.machine error, token.line, token.column⟩

/-- A fault at the token that is blamed. -/
def ofBlame (blame : Blame) : LoadError :=
  ⟨.syntaxFault blame.fault, blame.token.line, blame.token.column⟩

end LoadError

/-- How a load ends. -/
structure Loaded where
  machine : Machine
  error : Option LoadError

/-- How an operation of the machine ends a load's item at a token. -/
def Loaded.ofOutcome (token : SourceToken) (o : Outcome) : Loaded :=
  ⟨o.machine, o.error.map (.ofError token)⟩

/-- Does one item; calls nest at most `bound` deep. -/
def Item.perform (bound : Nat) (m : Machine) : Item → Option Loaded
  | .comment => some ⟨m, none⟩
  | .definition name effect body =>
    some (.ofOutcome name (m.define name.text { effect, body := .compiled body }))
  | .forget name => some (.ofOutcome name (m.forget name.text))
  | .dispatch token => (m.dispatch bound token.text).map (.ofOutcome token)

/-- Takes items from tokens one after the other and does each of them, in the given way, before
the next is taken. A fault or an item that fails ends this. Every item uses up one step, so as
many steps as tokens are enough. -/
def loadTokens (perform : Machine → Item → Option Loaded) (m : Machine) :
    (steps : Nat) → List SourceToken → Option Loaded
  | 0, _ => some ⟨m, none⟩
  | _ + 1, [] => some ⟨m, none⟩
  | steps + 1, token :: rest =>
    match takeItem token rest with
    | .error blame => some ⟨m, some (.ofBlame blame)⟩
    | .ok (item, after) =>
      (perform m item).bind fun loaded =>
        match loaded.error with
        | none => loadTokens perform loaded.machine steps after
        | some _ => some loaded

end Source

/-- Loads a source; calls nest at most `bound` deep. -/
def Machine.load (bound : Nat) (m : Machine) (source : String) : Option Source.Loaded :=
  let tokens := Source.scan source
  Source.loadTokens (Source.Item.perform bound) m tokens.length tokens

end WordMachine
