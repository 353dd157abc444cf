import WordMachine.Source.Load

/-! # Native words of any host

A native word may be any function of the machine. It gets an interpreter through which it calls
back into the machine that runs it, and it may do with the outcome what it likes. Running tokens
is defined here for every choice of functions behind the native words. The machine's own choice
lets each word act as its action says, and running tokens under that choice is what the machine
does (`Machine.Natives.interpret_own`).
-/

namespace WordMachine

namespace Machine

/-- What a native word can ask of the machine that runs it. -/
inductive Invocation where
  | run (tokens : List String)
  | dispatch (token : String)
  | execute (name : String)
  | executeBody (body : Body)

/-- A way to carry out what is asked of a machine. -/
abbrev Interpreter := Machine → Invocation → Option Outcome

/-- What a native word does to the machine. -/
abbrev NativeFunction := Interpreter → Machine → Option Outcome

/-- The functions behind all native words. -/
abbrev Natives := Native → NativeFunction

/-- The machine's own interpreter; calls nest at most `bound` deep. -/
def interpreter (bound : Nat) : Interpreter
  | m, .run tokens => m.runTokens bound tokens
  | m, .dispatch token => m.dispatch bound token
  | m, .execute name => m.execute bound name
  | m, .executeBody body => m.executeBodyWith (callWithin bound) body

namespace Natives

/-- Every native word acts as its action says. -/
def own : Natives := fun native interpreter m =>
  actWith (fun next tokens => interpreter next (.run tokens)) m native.action

section Interpretation

variable (natives : Natives) (interpreter : Interpreter)

/-- Runs a body. -/
def executeBodyWith (m : Machine) : Body → Option Outcome
  | .native native => natives native interpreter m
  | .compiled tokens =>
    (interpreter m.enter (.run tokens)).map fun o => { o with machine := o.machine.leave }

/-- Counts a use of the word of a name and runs its body. -/
def executeWith (m : Machine) (name : String) : Option Outcome :=
  match m.dictionary.resolve? name with
  | none => some (m.failed (.undefinedWord name))
  | some (body, dictionary) => natives.executeBodyWith interpreter { m with dictionary } body

/-- Records a token and does what it says. -/
def dispatchWith (m : Machine) (token : String) : Option Outcome :=
  match Token.classify token with
  | .number x => some ((m.record token).push (.number x))
  | .word name => natives.executeWith interpreter (m.record token) name

/-- Dispatches tokens in order and stops at the first that fails. -/
def runTokensWith (m : Machine) : List String → Option Outcome
  | [] => some m.done
  | token :: rest =>
    (natives.dispatchWith interpreter m token).bind fun o =>
      o.andThen fun next => runTokensWith next rest

/-- Carries out what is asked; native words and compiled bodies call the given interpreter. -/
def interpretWith : Interpreter
  | m, .run tokens => natives.runTokensWith interpreter m tokens
  | m, .dispatch token => natives.dispatchWith interpreter m token
  | m, .execute name => natives.executeWith interpreter m name
  | m, .executeBody body => natives.executeBodyWith interpreter m body

/-- The interpreter that native words and compiled bodies call; calls nest less than `bound`
deep. -/
def interpretBelow : (bound : Nat) → Interpreter
  | 0 => fun _ _ => none
  | bound + 1 => natives.interpretWith (interpretBelow bound)

/-- Carries out what is asked; calls nest at most `bound` deep. -/
def interpret (bound : Nat) : Interpreter :=
  natives.interpretWith (natives.interpretBelow bound)

end Interpretation

/-! ## The machine's own words -/

section Own

variable {interpreter : Interpreter} {call : Call}
  (called : ∀ m tokens, interpreter m (.run tokens) = call m tokens)

include called

theorem executeBodyWith_own (m : Machine) (body : Body) :
    own.executeBodyWith interpreter m body = m.executeBodyWith call body := by
  have calls : (fun next tokens => interpreter next (.run tokens)) = call :=
    funext fun next => funext (called next)
  cases body with
  | native native => rw [executeBodyWith, own, calls, Machine.executeBodyWith]
  | compiled tokens => rw [executeBodyWith, called, Machine.executeBodyWith]

theorem executeWith_own (m : Machine) (name : String) :
    own.executeWith interpreter m name = m.executeWith call name := by
  unfold executeWith Machine.executeWith
  cases m.dictionary.resolve? name with
  | none => rfl
  | some found => exact executeBodyWith_own called _ _

theorem dispatchWith_own (m : Machine) (token : String) :
    own.dispatchWith interpreter m token = m.dispatchWith call token := by
  unfold dispatchWith Machine.dispatchWith
  cases Token.classify token with
  | number x => rfl
  | word name => exact executeWith_own called _ name

theorem runTokensWith_own (m : Machine) (tokens : List String) :
    own.runTokensWith interpreter m tokens = m.runTokensWith call tokens := by
  induction tokens generalizing m with
  | nil => rfl
  | cons token rest ih =>
      rw [runTokensWith, Machine.runTokensWith, dispatchWith_own called]
      simp only [ih]

end Own

/-- Tokens that native words and compiled bodies run are run as calls, by induction on how deep
these nest. -/
theorem interpretBelow_own (bound : Nat) (m : Machine) (tokens : List String) :
    own.interpretBelow bound m (.run tokens) = callWithin bound m tokens := by
  induction bound generalizing m tokens with
  | zero => rfl
  | succ bound ih => exact runTokensWith_own ih m tokens

/-- With its own native words, what is asked of a machine is what the machine does. -/
theorem interpret_own (bound : Nat) : own.interpret bound = interpreter bound := by
  have calls := interpretBelow_own bound
  funext m invocation
  cases invocation with
  | run tokens => exact runTokensWith_own calls m tokens
  | dispatch token => exact dispatchWith_own calls m token
  | execute name => exact executeWith_own calls m name
  | executeBody body => exact executeBodyWith_own calls m body

end Natives

/-! ## Loads -/

namespace Interpreter

variable (interpreter : Interpreter)

/-- Does one item of a source. -/
def perform (m : Machine) : Source.Item → Option Source.Loaded
  | .comment => some ⟨m, none⟩
  | .definition name effect body =>
    some (.ofOutcome name (m.define name.text { effect, body := .compiled body }))
  | .forget name => some (.ofOutcome name (m.forget name.text))
  | .dispatch token => (interpreter m (.dispatch token.text)).map (.ofOutcome token)

/-- Loads a source. -/
def load (m : Machine) (source : String) : Option Source.Loaded :=
  let tokens := Source.scan source
  Source.loadTokens interpreter.perform m tokens.length tokens

end Interpreter

theorem perform_interpreter (bound : Nat) :
    (interpreter bound).perform = Source.Item.perform bound := by
  funext m item
  cases item <;> rfl

/-- A load by the machine's own interpreter is what the machine does. -/
theorem load_interpreter (bound : Nat) (m : Machine) (source : String) :
    (interpreter bound).load m source = m.load bound source := by
  rw [Interpreter.load, Machine.load, perform_interpreter]

/-- With its own native words, loads are what the machine does. -/
theorem Natives.load_own (bound : Nat) :
    (own.interpret bound).load = fun m source => m.load bound source := by
  rw [interpret_own]
  funext m source
  exact load_interpreter bound m source

end Machine

end WordMachine
