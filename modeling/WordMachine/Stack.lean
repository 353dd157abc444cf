import WordMachine.Error

/-! # Bounded stacks

A stack holds at most `limit` values. A push on a full stack and a pop of an empty one
fail and leave the stack as it is.
-/

namespace WordMachine

/-- A stack with its name in messages, its bound and its values, the top first. -/
structure Stack where
  name : String
  limit : Nat
  items : List Value
  deriving DecidableEq

namespace Stack

/-- How many values a stack holds unless it says otherwise. -/
def defaultLimit : Nat := 256

/-- The empty stack. -/
def empty (name : String) (limit : Nat) : Stack :=
  ⟨name, limit, []⟩

/-- How many values the stack holds. -/
def depth (s : Stack) : Nat :=
  s.items.length

/-- The values from the bottom to the top. -/
def toList (s : Stack) : List Value :=
  s.items.reverse

/-- Puts a value on top. -/
def push (s : Stack) (v : Value) : Except Error Stack :=
  if s.limit ≤ s.depth then .error (.stackOverflow s.name s.limit)
  else .ok { s with items := v :: s.items }

/-- Takes the top value. -/
def pop (s : Stack) : Except Error (Value × Stack) :=
  match s.items with
  | [] => .error (.stackUnderflow s.name)
  | v :: rest => .ok (v, { s with items := rest })

/-- The top value. -/
def peek (s : Stack) : Except Error Value :=
  match s.items with
  | [] => .error (.stackUnderflow s.name)
  | v :: _ => .ok v

/-- The stack without its values. -/
def clear (s : Stack) : Stack :=
  { s with items := [] }

/-- Stacks agree if their names and bounds are equal and their values agree. -/
def agrees (a b : Stack) : Bool :=
  a.name == b.name && a.limit == b.limit && Value.allAgree a.items b.items

end Stack

/-- A computation on one stack. A failure keeps the stack that was reached. -/
abbrev StackM := EStateM Error Stack

namespace StackM

/-- Puts a value on top. -/
def push (v : Value) : StackM Unit := fun s =>
  match s.push v with
  | .ok next => .ok () next
  | .error error => .error error s

/-- Takes the top value. -/
def pop : StackM Value := fun s =>
  match s.pop with
  | .ok (v, next) => .ok v next
  | .error error => .error error s

/-- The top value. -/
def peek : StackM Value := fun s =>
  match s.peek with
  | .ok v => .ok v s
  | .error error => .error error s

/-- Takes the top value, which has to be a number; `word` is blamed otherwise. -/
def popNumber (word : String) : StackM Float := do
  match ← pop with
  | .number x => return x
  | other => throw (.typeMismatch word .number other.kind)

/-- Takes the top value, which has to be a truth value; `word` is blamed otherwise. -/
def popBool (word : String) : StackM Bool := do
  match ← pop with
  | .bool b => return b
  | other => throw (.typeMismatch word .bool other.kind)

/-- Puts values on top in order and stops at the first that does not fit. -/
def pushAll : List Value → StackM Unit
  | [] => return ()
  | v :: vs => do
    push v
    pushAll vs

end StackM

end WordMachine
