import WordMachine.Value

/-! # Errors

Every way in which an operation of the machine can fail. An error names its cause;
`Error.message` is the only place that words it.
-/

namespace WordMachine

/-- Why bytes are not a packed record. -/
inductive PackedFault where
  | endOfInput
  | badVarint
  | badBool
  | badOption
  | badText
  | badContent
  deriving DecidableEq, Repr

/-- The text of a fault in packed bytes. -/
def PackedFault.message : PackedFault → String
  | .endOfInput => "Hit the end of buffer, expected more data"
  | .badVarint => "Found a varint that didn't terminate. Is the usize too big for this platform?"
  | .badBool => "Found a bool that wasn't 0 or 1"
  | .badOption => "Found an Option discriminant that wasn't 0 or 1"
  | .badText => "Tried to parse invalid utf-8"
  | .badContent => "Serde Deserialization Error"

/-- Why the console took no text. -/
inductive SinkFault where
  | full
  | poisoned
  deriving DecidableEq, Repr

/-- The text of a console fault. -/
def SinkFault.message : SinkFault → String
  | .full => "sink full"
  | .poisoned => "output sink poisoned"

/-- The cause of a failure. -/
inductive Error where
  | stackOverflow (stack : String) (limit : Nat)
  | stackUnderflow (stack : String)
  | undefinedWord (name : String)
  | protectedWord (name : String)
  | unknownWord (name : String)
  | controlFlow (message : String)
  | invalidName (name : String)
  | typeMismatch (word : String) (expected found : Kind)
  | unsupportedVersion (found : String)
  | corruptBody (name : String)
  | malformedText
  | malformedBytes (fault : PackedFault)
  | output (fault : SinkFault)
  deriving DecidableEq, Repr

namespace Error

/-- The text of an error. -/
def message : Error → String
  | .stackOverflow stack limit =>
    "stack overflow: " ++ stack ++ " stack is full (" ++ Text.natText limit ++ " values)"
  | .stackUnderflow stack => "stack underflow: " ++ stack ++ " stack is empty"
  | .undefinedWord name => "undefined word: " ++ name
  | .protectedWord name => "word '" ++ name ++ "' is protected"
  | .unknownWord name => "cannot forget unknown word '" ++ name ++ "'"
  | .controlFlow message => "control flow error: " ++ message
  | .invalidName name => "invalid word name '" ++ name ++ "'"
  | .typeMismatch word expected found =>
    "type error in " ++ word ++ ": expected " ++ expected.name ++ ", got " ++ found.name
  | .unsupportedVersion found => "unsupported state version '" ++ found ++ "'"
  | .corruptBody name => "corrupt state: body of '" ++ name ++ "'"
  | .malformedText => "state encoding error"
  | .malformedBytes fault => "binary state encoding error: " ++ fault.message
  | .output fault => "output error: " ++ fault.message

/-- The tag of an error for programs that react to it. -/
def tag : Error → String
  | .stackOverflow _ _ => "stack-overflow"
  | .stackUnderflow _ => "stack-underflow"
  | .undefinedWord _ => "word-not-found"
  | .protectedWord _ => "protected-word"
  | .unknownWord _ => "unknown-word"
  | .controlFlow _ => "control-flow"
  | .invalidName _ => "invalid-word-name"
  | .typeMismatch _ _ _ => "type-mismatch"
  | .unsupportedVersion _ => "unsupported-version"
  | .corruptBody _ => "corrupt-state"
  | .malformedText => "encoding"
  | .malformedBytes _ => "encoding"
  | .output _ => "io"

end Error

end WordMachine
