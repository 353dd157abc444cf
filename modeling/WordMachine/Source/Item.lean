import WordMachine.Source.Scan

/-! # The items of a source

A source is a sequence of items: comments, definitions, forgets and tokens to dispatch.
Which item comes next depends on the tokens alone. Tokens that start no item are a fault.
-/

namespace WordMachine

namespace Source

/-- Why tokens start no item. -/
inductive Fault where
  | expectedName
  | expectedForgottenName
  | nestedDefinition
  | unterminatedDefinition (name : String)
  | unterminatedComment
  | strayEnd
  deriving DecidableEq, Repr

/-- The text of a fault. -/
def Fault.message : Fault → String
  | .expectedName => "expected word name after ':'"
  | .expectedForgottenName => "expected word name after FORGET"
  | .nestedDefinition => "nested ':' inside a definition"
  | .unterminatedDefinition name => "unterminated definition of '" ++ name ++ "'"
  | .unterminatedComment => "unterminated '(' comment"
  | .strayEnd => "';' outside a definition"

/-- A fault and the token that is blamed for it. -/
structure Blame where
  fault : Fault
  token : SourceToken
  deriving DecidableEq

/-- A piece of a source. -/
inductive Item where
  | comment
  | definition (name : SourceToken) (effect : Option String) (body : List String)
  | forget (name : SourceToken)
  | dispatch (token : SourceToken)
  deriving DecidableEq

/-- The tokens after the rest of a line. -/
def afterLine (line : Nat) (tokens : List SourceToken) : List SourceToken :=
  tokens.dropWhile fun token => token.line == line

/-- Whether a token ends a comment in parentheses. -/
def endsComment (token : SourceToken) : Bool :=
  token.text.toList.getLast? == some ')'

/-- The texts of a comment in parentheses up to its end, and the tokens after it. -/
def takeComment? : List SourceToken → Option (List String × List SourceToken)
  | [] => none
  | token :: rest =>
    if endsComment token then some ([token.text], rest)
    else (takeComment? rest).map fun (texts, after) => (token.text :: texts, after)

/-- Skips the comment that `opening` starts. -/
def skipComment (opening : SourceToken) (tokens : List SourceToken) :
    Except Blame (List String × List SourceToken) :=
  match takeComment? tokens with
  | some (texts, after) => .ok (opening.text :: texts, after)
  | none => .error ⟨.unterminatedComment, opening⟩

/-- The body of a definition up to its end, and the tokens after it. Every token uses up
one step, so as many steps as tokens are enough. -/
def takeBody (name : SourceToken) : (steps : Nat) → List SourceToken →
    Except Blame (List String × List SourceToken)
  | 0, _ => .error ⟨.unterminatedDefinition name.text, name⟩
  | _ + 1, [] => .error ⟨.unterminatedDefinition name.text, name⟩
  | steps + 1, token :: rest =>
    if token.text = ";" then .ok ([], rest)
    else if token.text = ":" then .error ⟨.nestedDefinition, token⟩
    else if token.text = "\\" then takeBody name steps (afterLine token.line rest)
    else if token.text = "(" then do
      let (_, after) ← skipComment token rest
      takeBody name steps after
    else do
      let (body, after) ← takeBody name steps rest
      return (token.text :: body, after)

/-- The effect that a definition declares directly after its name. -/
def takeEffect : List SourceToken → Except Blame (Option String × List SourceToken)
  | token :: rest =>
    if token.text = "(" then do
      let (texts, after) ← skipComment token rest
      return (some (" ".intercalate texts), after)
    else .ok (none, token :: rest)
  | [] => .ok (none, [])

/-- Texts that cannot be the name of a definition. -/
def isReserved (text : String) : Bool :=
  text = ":" || text = ";" || text = "(" || text = "\\"

/-- The definition that `colon` starts, and the tokens after it. -/
def takeDefinition (colon : SourceToken) : List SourceToken →
    Except Blame (Item × List SourceToken)
  | [] => .error ⟨.expectedName, colon⟩
  | name :: rest =>
    if isReserved name.text then .error ⟨.expectedName, name⟩
    else do
      let (effect, rest) ← takeEffect rest
      let (body, rest) ← takeBody name (rest.length + 1) rest
      return (.definition name effect body, rest)

/-- The item that a token starts, and the tokens after it. -/
def takeItem (token : SourceToken) (rest : List SourceToken) :
    Except Blame (Item × List SourceToken) :=
  if token.text = "\\" then .ok (.comment, afterLine token.line rest)
  else if token.text = "(" then do
    let (_, after) ← skipComment token rest
    return (.comment, after)
  else if token.text = ":" then takeDefinition token rest
  else if token.text = ";" then .error ⟨.strayEnd, token⟩
  else if token.text = "FORGET" then
    match rest with
    | [] => .error ⟨.expectedForgottenName, token⟩
    | name :: after => .ok (.forget name, after)
  else .ok (.dispatch token, rest)

end Source

end WordMachine
