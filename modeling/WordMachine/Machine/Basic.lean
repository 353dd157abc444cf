import WordMachine.Dictionary
import WordMachine.Token

/-! # The machine

A machine owns two stacks, a dictionary, a trace of the tokens it dispatched and the
console that its words write to. Its clock is the time that it stamps on definitions
and saved states; only the host moves it.
-/

namespace WordMachine

/-- The bounds of a machine. -/
structure Config where
  stackDepth : Nat
  returnStackDepth : Nat
  historyLimit : Nat
  traceLimit : Nat
  deriving DecidableEq, Repr

/-- The bounds unless said otherwise. -/
def Config.default : Config :=
  ⟨Stack.defaultLimit, Stack.defaultLimit, Dictionary.defaultHistoryLimit, 4096⟩

/-- A dispatched token: how many compiled bodies were in progress and how deep the data
stack was. -/
structure TraceEntry where
  depth : Nat
  token : String
  stackDepth : Nat
  deriving DecidableEq, Repr

/-- A machine. The trace stands oldest first. -/
structure Machine where
  config : Config
  data : Stack
  returns : Stack
  dictionary : Dictionary
  tracing : Bool
  trace : List TraceEntry
  callDepth : Nat
  console : Console
  clock : Instant

/-- How an operation ends: the machine that it leaves and the error that stopped it. -/
structure Outcome where
  machine : Machine
  error : Option Error

namespace Outcome

/-- Goes on with the next operation unless an error came up. -/
@[inline]
def andThen (o : Outcome) (next : Machine → Option Outcome) : Option Outcome :=
  match o.error with
  | none => next o.machine
  | some _ => some o

end Outcome

namespace Machine

/-- The machine without words at rest. -/
def ofConfig (config : Config) (clock : Instant) : Machine :=
  { config
    data := .empty "data" config.stackDepth
    returns := .empty "return" config.returnStackDepth
    dictionary := .empty config.historyLimit
    tracing := false
    trace := []
    callDepth := 0
    console := .unlimited
    clock }

/-- Success. -/
def done (m : Machine) : Outcome :=
  ⟨m, none⟩

/-- Failure. -/
def failed (m : Machine) (error : Error) : Outcome :=
  ⟨m, some error⟩

/-- Computes on the data stack; a failure keeps the stack that was reached. -/
def onStack (m : Machine) (computation : StackM Unit) : Outcome :=
  match computation m.data with
  | .ok _ stack => { m with data := stack }.done
  | .error error stack => { m with data := stack }.failed error

/-- Puts a value on the data stack. -/
def push (m : Machine) (v : Value) : Outcome :=
  m.onStack (StackM.push v)

/-- Defines a name. -/
def define (m : Machine) (name : String) (definition : Definition) : Outcome :=
  match m.dictionary.define m.clock name definition with
  | .ok dictionary => { m with dictionary }.done
  | .error error => m.failed error

/-- Forgets a name. -/
def forget (m : Machine) (name : String) : Outcome :=
  match m.dictionary.forget name with
  | .ok (_, dictionary) => { m with dictionary }.done
  | .error error => m.failed error

/-- Writes a text to the console. -/
def write (m : Machine) (text : String) : Outcome :=
  match m.console.write text with
  | .ok console => { m with console }.done
  | .error error => m.failed error

/-- Defines names in order and stops at the first that fails. -/
def defineAll (m : Machine) : List (String × Definition) → Outcome
  | [] => m.done
  | (name, definition) :: rest =>
    match m.dictionary.define m.clock name definition with
    | .ok dictionary => { m with dictionary }.defineAll rest
    | .error error => m.failed error

/-- A trace of bounded length after one more entry; the oldest gives way. -/
def extendTrace (limit : Nat) (trace : List TraceEntry) (entry : TraceEntry) :
    List TraceEntry :=
  if limit = 0 then trace
  else (if trace.length = limit then trace.drop 1 else trace) ++ [entry]

/-- Records a token that is about to be dispatched. -/
def record (m : Machine) (token : String) : Machine :=
  if m.tracing then
    { m with
      trace := extendTrace m.config.traceLimit m.trace ⟨m.callDepth, token, m.data.depth⟩ }
  else m

/-- Turns tracing on or off; the trace stays. -/
def setTracing (m : Machine) (on : Bool) : Machine :=
  { m with tracing := on }

/-- Forgets the trace. -/
def clearTrace (m : Machine) : Machine :=
  { m with trace := [] }

/-- A copy with tracing off, made by defining every word and pushing every value
again. -/
def clone (m : Machine) : Except Error Machine := do
  let fresh := ofConfig m.config m.clock
  let dictionary ← m.dictionary.duplicate m.clock
  match StackM.pushAll m.data.toList fresh.data, StackM.pushAll m.returns.toList fresh.returns with
  | .ok _ data, .ok _ returns => .ok { fresh with dictionary, data, returns, console := m.console }
  | .error error _, _ => .error error
  | _, .error error _ => .error error

end Machine

end WordMachine
