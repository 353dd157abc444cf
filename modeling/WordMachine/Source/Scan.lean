import WordMachine.Text

/-! # Source tokens with their positions

Lines end at a line feed and are counted from one, as are the characters of a line. A
source token is a maximal run of characters that are not blank; since a line feed is a
blank, no token crosses lines.
-/

namespace WordMachine

/-- A token of a source text and where it starts. -/
structure SourceToken where
  text : String
  line : Nat
  column : Nat
  deriving DecidableEq, Repr

namespace Source

/-- How far a scan has come: the position of the next character, the token in progress
with its column and its characters, the last first, and the tokens before it, the last
first. -/
structure Scanner where
  line : Nat
  column : Nat
  current : Option (Nat × List Char)
  found : List SourceToken

namespace Scanner

/-- Before the first character. -/
def start : Scanner :=
  ⟨1, 1, none, []⟩

/-- The tokens found once the token in progress has ended. -/
def close (s : Scanner) : List SourceToken :=
  match s.current with
  | none => s.found
  | some (column, run) => ⟨String.ofList run.reverse, s.line, column⟩ :: s.found

/-- One more character. -/
def step (s : Scanner) (c : Char) : Scanner :=
  if c = '\n' then ⟨s.line + 1, 1, none, s.close⟩
  else if Text.isBlank c then ⟨s.line, s.column + 1, none, s.close⟩
  else
    match s.current with
    | none => { s with column := s.column + 1, current := some (s.column, [c]) }
    | some (column, run) =>
      { s with column := s.column + 1, current := some (column, c :: run) }

end Scanner

/-- The tokens of a text in order. -/
def scan (source : String) : List SourceToken :=
  (source.toList.foldl Scanner.step Scanner.start).close.reverse

end Source

end WordMachine
