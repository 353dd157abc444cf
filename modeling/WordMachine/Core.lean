import WordMachine.Stack

/-! # Core words

The words of arithmetic, comparison, logic and stack order. Each acts on the data
stack alone: it takes its inputs one by one from the top and then puts back its
outputs. A word that fails on the way leaves the stack as far as it came.
-/

namespace WordMachine

/-- The core words. -/
inductive CoreWord where
  | add | subtract | multiply | divide | modulo | negate | absolute | minimum | maximum
  | equal | unequal | less | greater | atMost | atLeast | isZero
  | both | either | negation | pushTrue | pushFalse | pushNil
  | dup | drop | swap | over | rot | nip | tuck | twoDup | twoDrop | twoSwap | depth | clear
  deriving DecidableEq, Repr

namespace CoreWord

/-- The core words in the order in which they are installed. -/
def all : List CoreWord :=
  [.add, .subtract, .multiply, .divide, .modulo, .negate, .absolute, .minimum, .maximum,
    .equal, .unequal, .less, .greater, .atMost, .atLeast, .isZero,
    .both, .either, .negation, .pushTrue, .pushFalse, .pushNil,
    .dup, .drop, .swap, .over, .rot, .nip, .tuck, .twoDup, .twoDrop, .twoSwap, .depth, .clear]

/-- The name of a core word. -/
def name : CoreWord → String
  | .add => "+"
  | .subtract => "-"
  | .multiply => "*"
  | .divide => "/"
  | .modulo => "MOD"
  | .negate => "NEGATE"
  | .absolute => "ABS"
  | .minimum => "MIN"
  | .maximum => "MAX"
  | .equal => "="
  | .unequal => "<>"
  | .less => "<"
  | .greater => ">"
  | .atMost => "<="
  | .atLeast => ">="
  | .isZero => "0="
  | .both => "AND"
  | .either => "OR"
  | .negation => "NOT"
  | .pushTrue => "TRUE"
  | .pushFalse => "FALSE"
  | .pushNil => "NIL"
  | .dup => "DUP"
  | .drop => "DROP"
  | .swap => "SWAP"
  | .over => "OVER"
  | .rot => "ROT"
  | .nip => "NIP"
  | .tuck => "TUCK"
  | .twoDup => "2DUP"
  | .twoDrop => "2DROP"
  | .twoSwap => "2SWAP"
  | .depth => "DEPTH"
  | .clear => "CLEAR"

/-- The declared stack effect of a core word. -/
def effect : CoreWord → String
  | .add => "( a b -- a+b )"
  | .subtract => "( a b -- a-b )"
  | .multiply => "( a b -- a*b )"
  | .divide => "( a b -- a/b )"
  | .modulo => "( a b -- a%b )"
  | .negate => "( n -- -n )"
  | .absolute => "( n -- |n| )"
  | .minimum => "( a b -- min )"
  | .maximum => "( a b -- max )"
  | .equal | .unequal | .less | .greater | .atMost | .atLeast => "( a b -- flag )"
  | .isZero => "( n -- flag )"
  | .both => "( a b -- a&&b )"
  | .either => "( a b -- a||b )"
  | .negation => "( a -- !a )"
  | .pushTrue => "( -- true )"
  | .pushFalse => "( -- false )"
  | .pushNil => "( -- nil )"
  | .dup => "( x -- x x )"
  | .drop => "( x -- )"
  | .swap => "( a b -- b a )"
  | .over => "( a b -- a b a )"
  | .rot => "( a b c -- b c a )"
  | .nip => "( a b -- b )"
  | .tuck => "( a b -- b a b )"
  | .twoDup => "( a b -- a b a b )"
  | .twoDrop => "( a b -- )"
  | .twoSwap => "( a b c d -- c d a b )"
  | .depth => "( -- n )"
  | .clear => "( ... -- )"

/-- The documentation of a core word. -/
def documentation : CoreWord → String
  | .add => "Add two numbers."
  | .subtract => "Subtract b from a."
  | .multiply => "Multiply two numbers."
  | .divide => "Divide a by b."
  | .modulo => "Remainder of a divided by b."
  | .negate => "Negate a number."
  | .absolute => "Absolute value."
  | .minimum => "Smaller of two numbers."
  | .maximum => "Larger of two numbers."
  | .equal => "True if a equals b."
  | .unequal => "True if a differs from b."
  | .less => "True if a < b."
  | .greater => "True if a > b."
  | .atMost => "True if a <= b."
  | .atLeast => "True if a >= b."
  | .isZero => "True if n is zero."
  | .both => "Logical and."
  | .either => "Logical or."
  | .negation => "Logical not."
  | .pushTrue => "Push true."
  | .pushFalse => "Push false."
  | .pushNil => "Push the absent value."
  | .dup => "Duplicate the top value."
  | .drop => "Discard the top value."
  | .swap => "Swap the top two values."
  | .over => "Copy the second value to the top."
  | .rot => "Rotate the top three values."
  | .nip => "Discard the second value."
  | .tuck => "Copy the top value below the second."
  | .twoDup => "Duplicate the top pair."
  | .twoDrop => "Discard the top pair."
  | .twoSwap => "Swap the top two pairs."
  | .depth => "Push the number of values on the stack."
  | .clear => "Empty the data stack."

/-- Takes two numbers, the second first, and pushes what `f` makes of them. -/
def onNumbers (word : CoreWord) (f : Float → Float → Value) : StackM Unit := do
  let b ← StackM.popNumber word.name
  let a ← StackM.popNumber word.name
  StackM.push (f a b)

/-- Takes a number and pushes what `f` makes of it. -/
def onNumber (word : CoreWord) (f : Float → Value) : StackM Unit := do
  let a ← StackM.popNumber word.name
  StackM.push (f a)

/-- Takes two truth values, the second first, and pushes what `f` makes of them. -/
def onBools (word : CoreWord) (f : Bool → Bool → Bool) : StackM Unit := do
  let b ← StackM.popBool word.name
  let a ← StackM.popBool word.name
  StackM.push (.bool (f a b))

/-- Takes two values, the second first, and pushes what `f` makes of them. -/
def onPair (f : Value → Value → List Value) : StackM Unit := do
  let b ← StackM.pop
  let a ← StackM.pop
  StackM.pushAll (f a b)

/-- What a core word does to the data stack. -/
def run : CoreWord → StackM Unit
  | .add => onNumbers .add fun a b => .number (a + b)
  | .subtract => onNumbers .subtract fun a b => .number (a - b)
  | .multiply => onNumbers .multiply fun a b => .number (a * b)
  | .divide => onNumbers .divide fun a b => .number (a / b)
  | .modulo => onNumbers .modulo fun a b => .number (Binary64.remainder a b)
  | .negate => onNumber .negate fun a => .number (-a)
  | .absolute => onNumber .absolute fun a => .number a.abs
  | .minimum => onNumbers .minimum fun a b => .number (Binary64.minimum a b)
  | .maximum => onNumbers .maximum fun a b => .number (Binary64.maximum a b)
  | .equal => onPair fun a b => [.bool (a.agrees b)]
  | .unequal => onPair fun a b => [.bool (!a.agrees b)]
  | .less => onNumbers .less fun a b => .bool (a < b)
  | .greater => onNumbers .greater fun a b => .bool (b < a)
  | .atMost => onNumbers .atMost fun a b => .bool (a ≤ b)
  | .atLeast => onNumbers .atLeast fun a b => .bool (b ≤ a)
  | .isZero => onNumber .isZero fun a => .bool (a == 0)
  | .both => onBools .both (· && ·)
  | .either => onBools .either (· || ·)
  | .negation => do
    let a ← StackM.popBool CoreWord.negation.name
    StackM.push (.bool !a)
  | .pushTrue => StackM.push (.bool true)
  | .pushFalse => StackM.push (.bool false)
  | .pushNil => StackM.push .nil
  | .dup => do
    let a ← StackM.peek
    StackM.push a
  | .drop => do
    let _ ← StackM.pop
  | .swap => onPair fun a b => [b, a]
  | .over => onPair fun a b => [a, b, a]
  | .rot => do
    let c ← StackM.pop
    let b ← StackM.pop
    let a ← StackM.pop
    StackM.pushAll [b, c, a]
  | .nip => onPair fun _ b => [b]
  | .tuck => onPair fun a b => [b, a, b]
  | .twoDup => onPair fun a b => [a, b, a, b]
  | .twoDrop => onPair fun _ _ => []
  | .twoSwap => do
    let d ← StackM.pop
    let c ← StackM.pop
    let b ← StackM.pop
    let a ← StackM.pop
    StackM.pushAll [c, d, a, b]
  | .depth => do
    let s ← get
    StackM.push (.number (Float.ofNat s.depth))
  | .clear => modify Stack.clear

end CoreWord

end WordMachine
