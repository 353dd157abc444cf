import WordMachine.Number.Decimal

/-! # Tokens

A token is a field of a source text. A numeral stands for its number, and every other
token for the word of that name.
-/

namespace WordMachine

/-- The meaning of a token. -/
inductive Token where
  | number (x : Float)
  | word (name : String)
  deriving DecidableEq

namespace Token

/-- The meaning of the text of a token. -/
def classify (text : String) : Token :=
  match Decimal.read? text.toList with
  | some decimal => .number decimal.toFloat
  | none => .word text

end Token

end WordMachine
