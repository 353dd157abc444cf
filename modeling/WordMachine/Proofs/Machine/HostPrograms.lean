import WordMachine.Proofs.Machine.Tracing

/-! # Programs of a host

A host writes a native word as a program: it looks at the machine, operates on it and asks it to
run something, and each answer decides how the program goes on. It may see all of the machine and
change it as it likes; what is shown of a program asks for more where it must, of its operations
one by one (`Machine.HostProgram.Every`). The machine's own native words are programs of this kind
(`Machine.Natives.ofPrograms_own`), so that what is shown of all programs holds of the machine as
it is.
-/

namespace WordMachine

namespace Machine

/-- A program of a host. -/
inductive HostProgram where
  | finish (error : Option Error)
  | look (next : Machine → HostProgram)
  | operate (operation : Machine → Outcome) (next : Option Error → HostProgram)
  | ask (invocation : Invocation) (next : Option Error → HostProgram)

namespace HostProgram

/-- What a program does to the machine. It goes on after errors as it likes. -/
def run : HostProgram → NativeFunction
  | .finish error => fun _ m => some ⟨m, error⟩
  | .look next => fun interpreter m => (next m).run interpreter m
  | .operate operation next => fun interpreter m =>
    (next (operation m).error).run interpreter (operation m).machine
  | .ask invocation next => fun interpreter m =>
    (interpreter m invocation).bind fun o => (next o.error).run interpreter o.machine

theorem run_ask (invocation : Invocation) (next : Option Error → HostProgram)
    (interpreter : Interpreter) (m : Machine) :
    (ask invocation next).run interpreter m =
      (interpreter m invocation).bind fun o => (next o.error).run interpreter o.machine := rfl

/-- Every operation of a program has a property, whatever the program sees on its way. -/
def Every (property : (Machine → Outcome) → Prop) : HostProgram → Prop
  | .finish _ => True
  | .look next => ∀ m, (next m).Every property
  | .operate operation next => property operation ∧ ∀ error, (next error).Every property
  | .ask _ next => ∀ error, (next error).Every property

/-- The program of a host action. -/
def ofHostAction : HostAction → HostProgram
  | .push v => .operate (fun m => m.push v) .finish
  | .countWords => .look fun m =>
    .operate (fun next => next.push (.number (Float.ofNat m.dictionary.size))) .finish
  | .fail message => .finish (some (.controlFlow message))
  | .run source => .ask (.run (Text.words source)) .finish
  | .forget name => .operate (fun m => m.forget name) .finish
  | .define name tokens => .operate (fun m => m.define name (.ofTokens tokens)) .finish
  | .noop => .finish none

/-- The program of a native action. -/
def ofAction : Action → HostProgram
  | .core word => .operate (fun m => m.onStack word.run) .finish
  | .console word => .operate word.run .finish
  | .host action => ofHostAction action

/-- The program of a native action does what the action says. -/
theorem run_ofAction (action : Action) (interpreter : Interpreter) (m : Machine) :
    (ofAction action).run interpreter m =
      actWith (fun next tokens => interpreter next (.run tokens)) m action := by
  cases action with
  | core | console => rfl
  | host action =>
      cases action with
      | run source => exact Option.bind_fun_some _
      | push | countWords | fail | «forget» | define | noop => rfl

/-- The programs of native actions are made of computations on the data stack, console words,
definitions and forgetting. -/
theorem every_ofAction {property : (Machine → Outcome) → Prop}
    (stack : ∀ computation, property fun m => m.onStack computation)
    (console : ∀ word : ConsoleWord, property word.run)
    (define : ∀ name definition, property fun m => m.define name definition)
    (forget : ∀ name, property fun m => m.forget name) (action : Action) :
    (ofAction action).Every property := by
  cases action with
  | core word => exact ⟨stack word.run, fun _ => trivial⟩
  | console word => exact ⟨console word, fun _ => trivial⟩
  | host action =>
      cases action with
      | push v => exact ⟨stack _, fun _ => trivial⟩
      | countWords => exact fun _ => ⟨stack _, fun _ => trivial⟩
      | «forget» name => exact ⟨forget name, fun _ => trivial⟩
      | define name tokens => exact ⟨define name _, fun _ => trivial⟩
      | run source => exact fun _ => trivial
      | fail | noop => exact trivial

end HostProgram

namespace Natives

/-- Programs behind the native words. -/
def ofPrograms (programs : Native → HostProgram) : Natives :=
  fun native => (programs native).run

/-- The programs of the machine's own native words. -/
def ownPrograms : Native → HostProgram :=
  fun native => .ofAction native.action

/-- The machine's own native words are programs. -/
theorem ofPrograms_own : ofPrograms ownPrograms = own := by
  funext native interpreter m
  exact HostProgram.run_ofAction native.action interpreter m

/-- With the programs of its own native words, what is asked of a machine is what the machine
does. -/
theorem interpret_ofPrograms_own (bound : Nat) :
    (ofPrograms ownPrograms).interpret bound = interpreter bound := by
  rw [ofPrograms_own, interpret_own]

end Natives

/-! ## Operations that leave the trace -/

/-- An operation leaves the trace as it is: it may read it, but does not clear it and does not
turn tracing on or off. -/
def LeavesTrace (operation : Machine → Outcome) : Prop :=
  ∀ m, (operation m).machine.traceState = m.traceState

theorem Blind.leavesTrace {operation : Machine → Outcome} (blind : Blind operation) :
    LeavesTrace operation :=
  blind.traceState_eq

/-- The machine's own native words leave the trace as it is. -/
theorem leavesTrace_own (native : Native) : (Natives.ownPrograms native).Every LeavesTrace :=
  HostProgram.every_ofAction (fun _ => (blind_onStack _).leavesTrace)
    (fun word => (blind_consoleWord word).leavesTrace)
    (fun name definition => (blind_define name definition).leavesTrace)
    (fun name => (blind_forget name).leavesTrace) native.action

end Machine

end WordMachine
