import WordMachine.Machine.Basic
import WordMachine.Text.Visible

/-! # Inspection texts

Texts for a developer who looks at a value, a body or a whole machine. Unlike the
console they show the type of every value and quote every text.
-/

namespace WordMachine

namespace Inspect

/-- How a character stands in a quoted text: itself where a reader can see it, and its
code in hexadecimal where not. -/
def escaped (c : Char) : List Char :=
  if c = '"' then ['\\', '"']
  else if c = '\\' then ['\\', '\\']
  else if c = '\n' then ['\\', 'n']
  else if c = '\r' then ['\\', 'r']
  else if c = '\t' then ['\\', 't']
  else if c.toNat = 0 then ['\\', '0']
  else if Text.isVisible c then [c]
  else '\\' :: 'u' :: '{' :: Nat.toDigits 16 c.toNat ++ ['}']

/-- A text in quotes. -/
def quoted (text : String) : String :=
  String.ofList ('"' :: text.toList.flatMap escaped ++ ['"'])

/-- A list in brackets. -/
def bracketed (items : List String) : String :=
  "[" ++ ", ".intercalate items ++ "]"

/-- A record with its name and its fields in braces. -/
def record (name : String) (fields : List (String × String)) : String :=
  name ++ " \x7b " ++ ", ".intercalate (fields.map fun field => field.1 ++ ": " ++ field.2) ++
    " \x7d"

/-- A truth value. -/
def bool (b : Bool) : String :=
  if b then "true" else "false"

end Inspect

/-- The inspection text of a value. -/
def Value.inspect : Value → String
  | .number x => "Number(" ++ Layout.inspected.text x ++ ")"
  | .text s => "Text(" ++ Inspect.quoted s ++ ")"
  | .bool b => "Bool(" ++ Inspect.bool b ++ ")"
  | .handle h =>
    "Handle(" ++
      Inspect.record "OpaqueHandle"
        [("kind", Inspect.quoted h.kind), ("detached", Inspect.bool h.isDetached)] ++ ")"
  | .nil => "Nil"

/-- The inspection text of a body. -/
def Body.inspect : Body → String
  | .native _ => "Native(..)"
  | .compiled tokens => "Compiled(" ++ Inspect.bracketed (tokens.map Inspect.quoted) ++ ")"

/-- The inspection text of the values of a stack, the bottom first. -/
def Stack.inspect (s : Stack) : String :=
  Inspect.bracketed (s.toList.map Value.inspect)

/-- The inspection text of a configuration. -/
def Config.inspect (c : Config) : String :=
  Inspect.record "VmConfig"
    [("stack_depth", Text.natText c.stackDepth),
      ("return_stack_depth", Text.natText c.returnStackDepth),
      ("history_limit", Text.natText c.historyLimit),
      ("trace_limit", Text.natText c.traceLimit)]

/-- The inspection text of a machine. -/
def Machine.inspect (m : Machine) : String :=
  Inspect.record "Vm"
    [("config", m.config.inspect),
      ("data_stack", m.data.inspect),
      ("return_stack", m.returns.inspect),
      ("words", Text.natText m.dictionary.size),
      ("tracing", Inspect.bool m.tracing)]

end WordMachine
