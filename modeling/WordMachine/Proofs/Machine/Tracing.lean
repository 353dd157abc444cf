import WordMachine.Proofs.Machine.Simulation
import WordMachine.Snapshot.Restore

/-! # Machines that differ in what they trace

No operation reads the trace of a machine, its limit, whether it grows or how deep calls
are. Two machines that differ in nothing else therefore end every operation alike and differ
in nothing else after it.
-/

namespace WordMachine

/-- What a machine knows about its trace: its limit, whether it grows, its entries and how
many compiled bodies are in progress. -/
structure TraceState where
  limit : Nat
  on : Bool
  entries : List TraceEntry
  depth : Nat

namespace Machine

/-- The machine with another trace. -/
def retraced (m : Machine) (t : TraceState) : Machine :=
  { m with
    config := { m.config with traceLimit := t.limit }
    tracing := t.on
    trace := t.entries
    callDepth := t.depth }

end Machine

/-- The outcome with another trace. -/
def Outcome.retraced (o : Outcome) (t : TraceState) : Outcome :=
  { o with machine := o.machine.retraced t }

namespace Machine

/-- An operation neither reads the trace nor changes the configuration. -/
structure Blind (f : Machine → Outcome) : Prop where
  retraced : ∀ m t, f (m.retraced t) = (f m).retraced t
  config : ∀ m, (f m).machine.config = m.config

/-- A computation on the data stack does not see the trace. -/
theorem blind_onStack (computation : StackM Unit) : Blind fun m => m.onStack computation where
  retraced m t := by
    unfold onStack Machine.retraced
    dsimp only
    split <;> rfl
  config m := by
    unfold onStack
    split <;> rfl

/-- A definition does not see the trace. -/
theorem blind_define (name : String) (definition : Definition) :
    Blind fun m => m.define name definition where
  retraced m t := by
    unfold define Machine.retraced
    dsimp only
    split <;> rfl
  config m := by
    unfold define
    split <;> rfl

/-- Forgetting does not see the trace. -/
theorem blind_forget (name : String) : Blind fun m => m.forget name where
  retraced m t := by
    unfold forget Machine.retraced
    dsimp only
    split <;> rfl
  config m := by
    unfold forget
    split <;> rfl

/-- Writing to the console does not see the trace. -/
theorem blind_write (text : String) : Blind fun m => m.write text where
  retraced m t := by
    unfold write Machine.retraced
    dsimp only
    split <;> rfl
  config m := by
    unfold write
    split <;> rfl

/-- A console word does not see the trace. -/
theorem blind_consoleWord (word : ConsoleWord) : Blind word.run where
  retraced m t := by
    unfold ConsoleWord.run
    have data : (m.retraced t).data = m.data := rfl
    have dictionary : (m.retraced t).dictionary = m.dictionary := rfl
    rw [data, dictionary]
    split
    · next text stack _ => exact (blind_write text).retraced { m with data := stack } t
    · rfl
  config m := by
    unfold ConsoleWord.run
    split
    · exact (blind_write _).config _
    · rfl

/-- Several definitions do not see the trace. -/
theorem blind_defineAll (definitions : List (String × Definition)) :
    Blind fun m => m.defineAll definitions := by
  induction definitions with
  | nil => exact ⟨fun _ _ => rfl, fun _ => rfl⟩
  | cons p rest ih =>
      obtain ⟨name, definition⟩ := p
      constructor
      · intro m t
        have time : (m.retraced t).clock = m.clock := rfl
        have dictionary : (m.retraced t).dictionary = m.dictionary := rfl
        rw [defineAll, defineAll, time, dictionary]
        split
        · next next _ => exact ih.retraced { m with dictionary := next } t
        · rfl
      · intro m
        rw [defineAll]
        split
        · exact ih.config _
        · rfl

/-- One operation after another, unless the first fails. -/
theorem Blind.andThen {f g : Machine → Outcome} (first : Blind f) (second : Blind g) :
    Blind fun m =>
      match (f m).error with
      | none => g (f m).machine
      | some _ => f m where
  retraced m t := by
    have error : ((f m).retraced t).error = (f m).error := rfl
    simp only [first.retraced, error]
    split
    · exact second.retraced (f m).machine t
    · rfl
  config m := by
    split
    · rw [second.config, first.config]
    · exact first.config m

/-- The state is replaced without a look at the trace. -/
theorem blind_replaceState (stack : List Value) (definitions : List (String × Definition)) :
    Blind fun m => m.replaceState stack definitions := by
  have pushed : Blind fun m => { m with data := m.data.clear }.onStack (StackM.pushAll stack) :=
    ⟨fun m t => (blind_onStack _).retraced { m with data := m.data.clear } t,
      fun m => (blind_onStack _).config { m with data := m.data.clear }⟩
  exact pushed.andThen (blind_defineAll definitions)

/-- A restore does not see the trace. -/
theorem blind_restore (s : Snapshot) : Blind fun m => m.restore s where
  retraced m t := by
    have data : (m.retraced t).data = m.data := rfl
    have dictionary : (m.retraced t).dictionary = m.dictionary := rfl
    unfold restore
    rw [data, dictionary]
    split
    · rfl
    · split
      · rfl
      · split
        · rfl
        · next definitions _ => exact (blind_replaceState s.stack definitions).retraced m t
  config m := by
    unfold restore
    split
    · rfl
    · split
      · rfl
      · split
        · rfl
        · next definitions _ => exact (blind_replaceState s.stack definitions).config m

/-- Recording a token changes the entries of the trace alone. -/
theorem exists_record_eq (m : Machine) (token : String) :
    ∃ entries,
      m.record token = m.retraced ⟨m.config.traceLimit, m.tracing, entries, m.callDepth⟩ := by
  unfold record
  split
  · exact ⟨_, rfl⟩
  · exact ⟨m.trace, rfl⟩

/-- What a machine knows about its trace. -/
def traceState (m : Machine) : TraceState :=
  ⟨m.config.traceLimit, m.tracing, m.trace, m.callDepth⟩

/-- An operation that is blind to the trace leaves it as it is. -/
theorem Blind.traceState_eq {f : Machine → Outcome} (blind : Blind f) (m : Machine) :
    (f m).machine.traceState = m.traceState :=
  congrArg (fun o : Outcome => o.machine.traceState) (blind.retraced m m.traceState)

/-! ## Runs and loads -/

/-- The second machine is the first with another trace. The limits of their traces are
given. -/
def SameButTrace (limit limit' : Nat) (m m' : Machine) : Prop :=
  m.config.traceLimit = limit ∧ ∃ on entries depth, m' = m.retraced ⟨limit', on, entries, depth⟩

namespace SameButTrace

variable {limit limit' : Nat} {m m' : Machine}

/-- Which machine traces does not matter. -/
theorem symm (same : SameButTrace limit limit' m m') : SameButTrace limit' limit m' m := by
  obtain ⟨rfl, on, entries, depth, rfl⟩ := same
  exact ⟨rfl, m.tracing, m.trace, m.callDepth, rfl⟩

/-- An operation that is blind to the trace ends alike. -/
theorem blind (same : SameButTrace limit limit' m m') {f : Machine → Outcome} (blind : Blind f) :
    EndAlike (SameButTrace limit limit') (f m) (f m') := by
  obtain ⟨rfl, on, entries, depth, rfl⟩ := same
  rw [blind.retraced]
  exact ⟨rfl, by rw [blind.config], on, entries, depth, rfl⟩

/-- Each machine records the token as its own tracing says. -/
theorem record (same : SameButTrace limit limit' m m') (token : String) :
    SameButTrace limit limit' (m.record token) (m'.record token) := by
  obtain ⟨rfl, on, entries, depth, rfl⟩ := same
  obtain ⟨first, recorded⟩ := exists_record_eq m token
  obtain ⟨second, recorded'⟩ := exists_record_eq (m.retraced ⟨limit', on, entries, depth⟩) token
  rw [recorded, recorded']
  exact ⟨rfl, on, second, depth, rfl⟩

end SameButTrace

/-- Machines that differ in their traces alone run alike, whatever their words do natively. -/
theorem simulation_sameButTrace (limit limit' : Nat) :
    Simulation (fun _ => True) (fun _ => False) (SameButTrace limit limit') where
  number same _ := .inr (same.blind (blind_onStack _))
  push same _ _ := .inr (same.blind (blind_onStack _))
  count := by
    rintro m _ ⟨_, _, _, _, rfl⟩
    rfl
  core same _ := .inr (same.blind (blind_onStack _))
  console same word := .inr (same.blind (blind_consoleWord word))
  define same name _ _ := .inr (same.blind (blind_define name _))
  forget same name := .inr (same.blind (blind_forget name))
  record same token := same.record token
  enter := by
    rintro m _ ⟨rfl, on, entries, depth, rfl⟩
    exact ⟨rfl, on, entries, depth + 1, rfl⟩
  leave := by
    rintro m _ ⟨rfl, on, entries, depth, rfl⟩
    exact ⟨rfl, on, entries, depth - 1, rfl⟩
  unresolved := by
    rintro m _ ⟨_, _, _, _, rfl⟩ name missing
    exact missing
  resolved := by
    rintro m _ ⟨rfl, on, entries, depth, rfl⟩ name body dictionary found
    refine ⟨body, dictionary, found, .refl body, ?_, rfl, on, entries, depth, rfl⟩
    cases body <;> exact trivial

end Machine

end WordMachine
