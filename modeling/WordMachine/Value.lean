import WordMachine.Number.Layout

/-! # Values

What the stacks hold: numbers, texts, truth values, handles of host objects and the
absent value. A handle that was stored and read back is detached: it keeps its kind
and has lost its object.
-/

namespace WordMachine

/-- What a host object holds, as far as a host looks into it. -/
inductive HostContent where
  | integer (n : Int)
  | text (s : String)
  deriving DecidableEq

/-- An object of the host. Two objects are the same one if their identities agree. -/
structure HostObject where
  identity : Nat
  content : HostContent
  deriving DecidableEq

/-- A handle names a kind of object and holds one, unless it is detached. -/
structure Handle where
  kind : String
  object : Option HostObject
  deriving DecidableEq

namespace Handle

/-- A detached handle has no object. -/
def isDetached (h : Handle) : Bool :=
  h.object.isNone

/-- Two handles agree if their kinds do and they hold the same object or none. -/
def agrees (a b : Handle) : Bool :=
  a.kind == b.kind && a.object.map HostObject.identity == b.object.map HostObject.identity

/-- The handle without its object. -/
def detach (h : Handle) : Handle :=
  { h with object := none }

end Handle

/-- The types of values. -/
inductive Kind where
  | number
  | text
  | bool
  | handle
  | nil
  deriving DecidableEq, Repr

/-- The name of a type in messages. -/
def Kind.name : Kind → String
  | .number => "number"
  | .text => "text"
  | .bool => "bool"
  | .handle => "handle"
  | .nil => "nil"

/-- A value of the machine. -/
inductive Value where
  | number (x : Float)
  | text (s : String)
  | bool (b : Bool)
  | handle (h : Handle)
  | nil
  deriving DecidableEq

namespace Value

/-- The type of a value. -/
def kind : Value → Kind
  | .number _ => .number
  | .text _ => .text
  | .bool _ => .bool
  | .handle _ => .handle
  | .nil => .nil

/-- Equality as programs see it: numbers compare as numbers, so that a NaN differs from
itself and the zeros agree, and handles compare by their objects. -/
def agrees : Value → Value → Bool
  | .number x, .number y => x == y
  | .text s, .text t => s == t
  | .bool a, .bool b => a == b
  | .handle a, .handle b => a.agrees b
  | .nil, .nil => true
  | _, _ => false

/-- Lists of values agree if they have one length and agree at every position. -/
def allAgree : List Value → List Value → Bool
  | [], [] => true
  | v :: vs, w :: ws => v.agrees w && allAgree vs ws
  | _, _ => false

/-- The value without the object of a handle. -/
def detach : Value → Value
  | .handle h => .handle h.detach
  | v => v

/-- Numbers below this bound are printed as whole numbers if they are whole. -/
def wholeBound : Nat := 1000000000000000

/-- The printed number: a whole number below the bound has no fraction and zero has no
sign. -/
def numberText (x : Float) : String :=
  match Binary64.toInt? x with
  | some n =>
    if n.natAbs < wholeBound then
      (if n < 0 then "-" else "") ++ Text.natText n.natAbs
    else Layout.console.text x
  | none => Layout.console.text x

/-- The printed value. -/
def display : Value → String
  | .number x => numberText x
  | .text s => s
  | .bool true => "true"
  | .bool false => "false"
  | .handle h => "<" ++ h.kind ++ ">"
  | .nil => "nil"

end Value

end WordMachine
