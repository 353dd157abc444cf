import Mathlib.Logic.Relation
import WordMachine.Library
import WordMachine.Proofs.Machine.HostFunctions
import WordMachine.Snapshot.Restore

/-! # Operations of a host

A host performs operations on a machine from outside, and so do the functions that it puts behind
native words, from inside of a run. Of such a function it only matters here that it acts by moves:
each is an operation or asks the machine to run something, and the function may choose its moves as
it likes, go on after errors and end with any error of its own.

What operations, the library's words and the steps of a run keep is kept by everything that a host
does (`Machine.KeptByHosts.perform`). Calls make one such property a family, with a member for each
number of calls in progress.
-/

namespace WordMachine

/-- An operation of a host. Runs and loads carry the bound on the nesting of calls within
which they end. -/
inductive HostOperation where
  | push (v : Value)
  | pop
  | run (bound : Nat) (source : String)
  | load (bound : Nat) (source : String)
  | execute (bound : Nat) (name : String)
  | executeWord (bound : Nat) (word : Word)
  | dispatch (bound : Nat) (token : String)
  | define (name : String) (definition : Definition)
  | forget (name : String)
  | install (identity : Nat) (parts : List Library.Part)
  | restore (s : Snapshot)
  | setTracing (on : Bool)
  | clearTrace

/-- An operation that runs nothing. -/
def HostOperation.Direct : HostOperation → Prop
  | .run .. | .load .. | .execute .. | .executeWord .. | .dispatch .. => False
  | _ => True

namespace Machine

/-- The machine without its top value. -/
def popped (m : Machine) : Machine :=
  (m.onStack do let _ ← StackM.pop).machine

/-- The machine that an operation leaves, also when it fails; none if a run or load does
not end within its bound. -/
def perform (m : Machine) : HostOperation → Option Machine
  | .push v => some (m.push v).machine
  | .pop => some m.popped
  | .run bound source => (m.run bound source).map Outcome.machine
  | .load bound source => (m.load bound source).map Source.Loaded.machine
  | .execute bound name => (m.execute bound name).map Outcome.machine
  | .executeWord bound word => (m.executeWord bound word).map Outcome.machine
  | .dispatch bound token => (m.dispatch bound token).map Outcome.machine
  | .define name definition => some (m.define name definition).machine
  | .forget name => some (m.forget name).machine
  | .install identity parts => some (Library.install identity parts m).machine
  | .restore s => some (m.restore s).machine
  | .setTracing on => some (m.setTracing on)
  | .clearTrace => some m.clearTrace

/-- The machine that an operation leaves where the given functions are behind the native words. -/
def Natives.perform (natives : Natives) (m : Machine) : HostOperation → Option Machine
  | .run bound source =>
    (natives.interpret bound m (.run (Text.words source))).map Outcome.machine
  | .load bound source => ((natives.interpret bound).load m source).map Source.Loaded.machine
  | .execute bound name => (natives.interpret bound m (.execute name)).map Outcome.machine
  | .executeWord bound word =>
    (natives.interpret bound m (.executeBody word.body)).map Outcome.machine
  | .dispatch bound token => (natives.interpret bound m (.dispatch token)).map Outcome.machine
  | operation => m.perform operation

/-- With its own native words, a machine performs operations as it does. -/
theorem Natives.perform_own (m : Machine) (operation : HostOperation) :
    own.perform m operation = m.perform operation := by
  cases operation with
  | load bound source =>
      change ((own.interpret bound).load m source).map _ = _
      rw [load_own]
      rfl
  | run | execute | executeWord | dispatch =>
      change (own.interpret _ m _).map _ = _
      rw [interpret_own]
      rfl
  | push | pop | define | «forget» | install | restore | setTracing | clearTrace => rfl

/-- An operation asks for something, loads a source or runs nothing. -/
theorem Natives.perform_cases {natives : Natives} {m next : Machine} {operation : HostOperation}
    (performed : natives.perform m operation = some next) :
    (∃ bound invocation o, natives.interpret bound m invocation = some o ∧ o.machine = next) ∨
      (∃ bound source loaded, (natives.interpret bound).load m source = some loaded ∧
        loaded.machine = next) ∨
      operation.Direct ∧ m.perform operation = some next := by
  cases operation with
  | run bound source =>
      obtain ⟨o, ended, left⟩ := Option.map_eq_some_iff.mp performed
      exact .inl ⟨bound, .run (Text.words source), o, ended, left⟩
  | execute bound name =>
      obtain ⟨o, ended, left⟩ := Option.map_eq_some_iff.mp performed
      exact .inl ⟨bound, .execute name, o, ended, left⟩
  | executeWord bound word =>
      obtain ⟨o, ended, left⟩ := Option.map_eq_some_iff.mp performed
      exact .inl ⟨bound, .executeBody word.body, o, ended, left⟩
  | dispatch bound token =>
      obtain ⟨o, ended, left⟩ := Option.map_eq_some_iff.mp performed
      exact .inl ⟨bound, .dispatch token, o, ended, left⟩
  | load bound source =>
      obtain ⟨loaded, ended, left⟩ := Option.map_eq_some_iff.mp performed
      exact .inr (.inl ⟨bound, source, loaded, ended, left⟩)
  | push | pop | define | «forget» | install | restore | setTracing | clearTrace =>
      exact .inr (.inr ⟨trivial, performed⟩)

/-! ## Moves -/

/-- What a host function can do to the machine that runs it: an admitted operation that runs
nothing, or asking the machine for something. Each of these may fail. -/
inductive HostMove (admits : Machine → HostOperation → Prop) (interpreter : Interpreter) :
    Machine → Machine → Prop where
  | operate {m next : Machine} (operation : HostOperation) (direct : operation.Direct)
      (admitted : admits m operation) (performed : m.perform operation = some next) :
      HostMove admits interpreter m next
  | ask {m : Machine} {invocation : Invocation} {o : Outcome}
      (ended : interpreter m invocation = some o) : HostMove admits interpreter m o.machine

namespace NativeFunction

/-- A function acts by admitted moves: the machine that it leaves is reached by them. -/
def ActsWithin (admits : Machine → HostOperation → Prop) (f : NativeFunction) : Prop :=
  ∀ interpreter m o, f interpreter m = some o →
    Relation.ReflTransGen (HostMove admits interpreter) m o.machine

/-- A function acts by moves. -/
def ActsByMoves : NativeFunction → Prop :=
  ActsWithin fun _ _ => True

theorem ActsWithin.actsByMoves {admits : Machine → HostOperation → Prop} {f : NativeFunction}
    (within : f.ActsWithin admits) : f.ActsByMoves := by
  intro interpreter m o ended
  refine Relation.ReflTransGen.mono (fun _ _ move => ?_) _ _ (within interpreter m o ended)
  cases move with
  | operate operation direct _ performed => exact .operate operation direct trivial performed
  | ask ended => exact .ask ended

end NativeFunction

theorem Natives.OwnOr.mono {property weaker : NativeFunction → Prop} {natives : Natives}
    (hosts : natives.OwnOr property) (implies : ∀ f, property f → weaker f) :
    natives.OwnOr weaker :=
  fun native => (hosts native).imp_right (implies _)

/-! ## Families of properties -/

/-- An interpreter keeps a family of properties, one for each number of calls in progress. -/
def Interpreter.Keeps (P : Nat → Machine → Prop) (interpreter : Interpreter) : Prop :=
  ∀ ⦃depth m⦄, P depth m → ∀ ⦃invocation o⦄, interpreter m invocation = some o →
    P depth o.machine

/-- A function behind a native word keeps a family of properties if the interpreter does that it
is given. -/
def NativeFunction.Keeps (P : Nat → Machine → Prop) (f : NativeFunction) : Prop :=
  ∀ ⦃interpreter⦄, Interpreter.Keeps P interpreter →
    ∀ ⦃depth m⦄, P depth m → ∀ ⦃o⦄, f interpreter m = some o → P depth o.machine

/-- A family of properties that the steps of a run keep. A compiled body is one call more. -/
structure KeptAtDepths (P : Nat → Machine → Prop) (natives : Natives) : Prop where
  number : ∀ {depth m}, P depth m → ∀ x, P depth (m.push (.number x)).machine
  record : ∀ {depth m}, P depth m → ∀ token, P depth (m.record token)
  enter : ∀ {depth m}, P depth m → P (depth + 1) m.enter
  leave : ∀ {depth m}, P (depth + 1) m → P depth m.leave
  resolved : ∀ {depth m}, P depth m → ∀ {name body dictionary},
    m.dictionary.resolve? name = some (body, dictionary) → P depth { m with dictionary }
  native : ∀ native, NativeFunction.Keeps P (natives native)

namespace KeptAtDepths

variable {P : Nat → Machine → Prop} {natives : Natives} (kept : KeptAtDepths P natives)

section Interpretation

variable {interpreter : Interpreter} (keeps : interpreter.Keeps P) {depth : Nat} {m : Machine}
  (holds : P depth m)

include kept keeps holds

theorem executeBodyWith {body : Body} {o : Outcome}
    (ended : natives.executeBodyWith interpreter m body = some o) : P depth o.machine := by
  cases body with
  | native native => exact kept.native native keeps holds ended
  | compiled tokens =>
      obtain ⟨inner, called, rfl⟩ := Option.map_eq_some_iff.mp ended
      apply kept.leave
      exact keeps (kept.enter holds) called

theorem executeWith {name : String} {o : Outcome}
    (ended : natives.executeWith interpreter m name = some o) : P depth o.machine := by
  unfold Natives.executeWith at ended
  cases resolved : m.dictionary.resolve? name with
  | none =>
      rw [resolved] at ended
      cases ended
      exact holds
  | some found =>
      rw [resolved] at ended
      exact kept.executeBodyWith keeps (kept.resolved holds resolved) ended

theorem dispatchWith {token : String} {o : Outcome}
    (ended : natives.dispatchWith interpreter m token = some o) : P depth o.machine := by
  have recorded := kept.record holds token
  unfold Natives.dispatchWith at ended
  cases meaning : Token.classify token with
  | number x =>
      rw [meaning] at ended
      cases ended
      exact kept.number recorded x
  | word name =>
      rw [meaning] at ended
      exact kept.executeWith keeps recorded ended

/-- Tokens in a row keep the family, by induction on the tokens. -/
theorem runTokensWith {tokens : List String} {o : Outcome}
    (ended : natives.runTokensWith interpreter m tokens = some o) : P depth o.machine := by
  induction tokens generalizing m with
  | nil =>
      cases ended
      exact holds
  | cons token rest ih =>
      obtain ⟨⟨next, error⟩, dispatched, after⟩ := Option.bind_eq_some_iff.mp ended
      have reached := kept.dispatchWith keeps holds dispatched
      cases error with
      | none => exact ih reached after
      | some error =>
          cases after
          exact reached

end Interpretation

include kept

theorem interpretWith {interpreter : Interpreter} (keeps : interpreter.Keeps P) :
    (natives.interpretWith interpreter).Keeps P := by
  intro depth m holds invocation o ended
  cases invocation with
  | run tokens => exact kept.runTokensWith keeps holds ended
  | dispatch token => exact kept.dispatchWith keeps holds ended
  | execute name => exact kept.executeWith keeps holds ended
  | executeBody body => exact kept.executeBodyWith keeps holds ended

/-- Whatever is asked of a machine keeps the family, by induction on how deep calls may nest. -/
theorem interpret (bound : Nat) : (natives.interpret bound).Keeps P := by
  apply kept.interpretWith
  induction bound with
  | zero => exact fun _ _ _ _ _ ended => nomatch ended
  | succ bound ih => exact kept.interpretWith ih

end KeptAtDepths

namespace Interpreter.Keeps

variable {P : Nat → Machine → Prop} {interpreter : Interpreter} (keeps : interpreter.Keeps P)
  {depth : Nat}
  (define : ∀ {m}, P depth m → ∀ name effect tokens,
    P depth (m.define name { effect, body := .compiled tokens }).machine)
  (forget : ∀ {m}, P depth m → ∀ name, P depth (m.forget name).machine)

include keeps define forget

theorem perform {m : Machine} (holds : P depth m) {item : Source.Item} {loaded : Source.Loaded}
    (ended : interpreter.perform m item = some loaded) : P depth loaded.machine := by
  cases item with
  | comment =>
      cases ended
      exact holds
  | definition name effect body =>
      cases ended
      exact define holds _ _ _
  | «forget» name =>
      cases ended
      exact forget holds _
  | dispatch token =>
      obtain ⟨o, dispatched, rfl⟩ := Option.map_eq_some_iff.mp ended
      exact keeps holds dispatched

theorem performAll {m : Machine} (holds : P depth m) {items : List Source.Item}
    {loaded : Source.Loaded} (ended : interpreter.performAll m items = some loaded) :
    P depth loaded.machine := by
  induction items generalizing m with
  | nil =>
      cases ended
      exact holds
  | cons item rest ih =>
      obtain ⟨⟨next, error⟩, performed, after⟩ := Option.bind_eq_some_iff.mp ended
      have reached := keeps.perform define forget holds performed
      cases error with
      | none => exact ih reached after
      | some error =>
          cases after
          exact reached

/-- A load keeps a property that the interpreter, definitions and forgetting keep. -/
theorem load {m : Machine} (holds : P depth m) {source : String} {loaded : Source.Loaded}
    (ended : interpreter.load m source = some loaded) : P depth loaded.machine := by
  rw [load_eq] at ended
  obtain ⟨last, performed, rfl⟩ := Option.map_eq_some_iff.mp ended
  have reached := keeps.performAll define forget holds performed
  split <;> exact reached

end Interpreter.Keeps

/-! ## What hosts keep -/

/-- A family of properties that the words of the library, the steps of a run and the admitted
operations that run nothing keep. -/
structure KeptByHosts (admits : Machine → HostOperation → Prop) (P : Nat → Machine → Prop) :
    Prop where
  core : ∀ {depth m}, P depth m → ∀ word : CoreWord, P depth (m.onStack word.run).machine
  console : ∀ {depth m}, P depth m → ∀ word : ConsoleWord, P depth (word.run m).machine
  push : ∀ {depth m}, P depth m → ∀ v, P depth (m.push v).machine
  define : ∀ {depth m}, P depth m → ∀ name effect tokens,
    P depth (m.define name { effect, body := .compiled tokens }).machine
  forget : ∀ {depth m}, P depth m → ∀ name, P depth (m.forget name).machine
  record : ∀ {depth m}, P depth m → ∀ token, P depth (m.record token)
  enter : ∀ {depth m}, P depth m → P (depth + 1) m.enter
  leave : ∀ {depth m}, P (depth + 1) m → P depth m.leave
  resolved : ∀ {depth m}, P depth m → ∀ {name body dictionary},
    m.dictionary.resolve? name = some (body, dictionary) → P depth { m with dictionary }
  operate : ∀ {depth m next operation}, P depth m → operation.Direct → admits m operation →
    m.perform operation = some next → P depth next

namespace KeptByHosts

variable {admits : Machine → HostOperation → Prop} {P : Nat → Machine → Prop}
  (kept : KeptByHosts admits P)

include kept

/-- Native words that act as their actions say keep the family. -/
theorem keeps_own (native : Native) : (Natives.own native).Keeps P := by
  intro interpreter keeps depth m holds o ended
  unfold Natives.own at ended
  cases acts : native.action with
  | core word =>
      rw [acts] at ended
      cases ended
      exact kept.core holds word
  | console word =>
      rw [acts] at ended
      cases ended
      exact kept.console holds word
  | host action =>
      rw [acts] at ended
      cases action with
      | run source => exact keeps holds ended
      | push | countWords =>
          cases ended
          exact kept.push holds _
      | fail | noop =>
          cases ended
          exact holds
      | «forget» name =>
          cases ended
          exact kept.forget holds name
      | define name tokens =>
          cases ended
          exact kept.define holds name none tokens

/-- Admitted moves keep the family, by induction on the moves. -/
theorem keeps_of_actsWithin {f : NativeFunction} (within : f.ActsWithin admits) : f.Keeps P := by
  intro interpreter keeps depth m holds o ended
  have moves := within interpreter m o ended
  generalize o.machine = last at moves
  induction moves with
  | refl => exact holds
  | tail _ move ih =>
      cases move with
      | operate _ direct admitted performed => exact kept.operate ih direct admitted performed
      | ask ended => exact keeps ih ended

theorem keptAtDepths {natives : Natives}
    (hosts : natives.OwnOr (NativeFunction.ActsWithin admits)) : KeptAtDepths P natives where
  number holds x := kept.push holds (.number x)
  record holds token := kept.record holds token
  enter holds := kept.enter holds
  leave holds := kept.leave holds
  resolved holds _ _ _ found := kept.resolved holds found
  native := by
    intro native
    rcases hosts native with own | within
    · rw [own]
      exact kept.keeps_own native
    · exact kept.keeps_of_actsWithin within

/-- An operation keeps the family if it is admitted or runs something. -/
theorem perform {natives : Natives} (hosts : natives.OwnOr (NativeFunction.ActsWithin admits))
    (depth : Nat) {m next : Machine} (holds : P depth m) {operation : HostOperation}
    (admitted : operation.Direct → admits m operation)
    (performed : natives.perform m operation = some next) : P depth next := by
  have keeps := (kept.keptAtDepths hosts).interpret
  rcases Natives.perform_cases performed with
    ⟨bound, invocation, o, ended, rfl⟩ | ⟨bound, source, loaded, ended, rfl⟩ | ⟨direct, done⟩
  · exact keeps bound holds ended
  · exact (keeps bound).load kept.define kept.forget holds ended
  · exact kept.operate holds direct (admitted direct) done

end KeptByHosts

end Machine

end WordMachine
