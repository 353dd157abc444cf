import WordMachine.Stack

/-! # The console and its words

The console takes texts as a whole or not at all. A console word first changes the data
stack and makes its text, and the text is written after that, so a word whose text the
console refuses has taken its inputs all the same.
-/

namespace WordMachine

/-- The console: what was written, how many bytes it takes and whether it is out of
order. -/
structure Console where
  written : String
  limit : Option Nat
  poisoned : Bool
  deriving DecidableEq

namespace Console

/-- A console without a bound. -/
def unlimited : Console :=
  ⟨"", none, false⟩

/-- Writes a text as a whole or not at all. -/
def write (c : Console) (text : String) : Except Error Console :=
  if c.poisoned then .error (.output .poisoned)
  else if c.limit.any fun limit => limit < (c.written ++ text).utf8ByteSize then
    .error (.output .full)
  else .ok { c with written := c.written ++ text }

end Console

/-- The words that write to the console. -/
inductive ConsoleWord where
  | print
  | printStack
  | newline
  | space
  | emit
  | words
  deriving DecidableEq, Repr

namespace ConsoleWord

/-- The console words in the order in which they are installed. -/
def all : List ConsoleWord :=
  [.print, .printStack, .newline, .space, .emit, .words]

/-- The name of a console word. -/
def name : ConsoleWord → String
  | .print => "."
  | .printStack => ".S"
  | .newline => "CR"
  | .space => "SPACE"
  | .emit => "EMIT"
  | .words => "WORDS"

/-- The declared stack effect of a console word. -/
def effect : ConsoleWord → String
  | .print => "( x -- )"
  | .printStack | .newline | .space | .words => "( -- )"
  | .emit => "( code -- )"

/-- The documentation of a console word. -/
def documentation : ConsoleWord → String
  | .print => "Print and discard the top value."
  | .printStack => "Print the data stack, bottom first."
  | .newline => "Print a newline."
  | .space => "Print a space."
  | .emit => "Print the character with this code."
  | .words => "Print every word name in definition order."

/-- The character with a code, or the replacement character if there is none. -/
def characterOfCode (code : UInt32) : Char :=
  if code.toNat < 0xD800 ∨ 0xDFFF < code.toNat ∧ code.toNat < 0x110000 then
    Char.ofNat code.toNat
  else '\uFFFD'

/-- What a console word prints when the given names are defined, and what it does to the
data stack. -/
def text (names : List String) : ConsoleWord → StackM String
  | .print => do
    let v ← StackM.pop
    return v.display ++ " "
  | .printStack => do
    let s ← get
    return "<" ++ Text.natText s.depth ++ "> " ++
      " ".intercalate (s.toList.map Value.display) ++ "\n"
  | .newline => return "\n"
  | .space => return " "
  | .emit => do
    let code ← StackM.popNumber ConsoleWord.emit.name
    return String.singleton (characterOfCode code.toUInt32)
  | .words => return " ".intercalate names ++ "\n"

end ConsoleWord

end WordMachine
