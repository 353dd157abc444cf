import WordMachine.Proofs.Machine.HostFunctions
import WordMachine.Proofs.Machine.Tracing

/-! # Tracing is not observed

What a machine traces has no effect on what it does. Take two machines that differ in the limit
of the trace, whether it grows, its entries and how deep calls are. Whatever is asked of both, one
ends if the other does, with the same error or none, and leaves the same stacks, dictionary and
console. Host functions may run tokens, catch errors and change the trace; they must not read it.
-/

namespace WordMachine

namespace Machine

/-- The second machine is the first with another trace, whatever the limits of their traces. -/
def SameUntraced (m m' : Machine) : Prop :=
  ∃ t, m' = m.retraced t

theorem SameUntraced.symm {m m' : Machine} (same : SameUntraced m m') : SameUntraced m' m := by
  obtain ⟨t, rfl⟩ := same
  exact ⟨⟨m.config.traceLimit, m.tracing, m.trace, m.callDepth⟩, rfl⟩

/-- Machines that differ in their traces alone run alike: the limits of the traces are those of
some pair. -/
theorem simulation_sameUntraced : Simulation (fun _ => True) (fun _ => False) SameUntraced := by
  have union := simulation_exists fun limits : Nat × Nat =>
    simulation_sameButTrace limits.1 limits.2
  have same : (fun m m' => ∃ limits : Nat × Nat, SameButTrace limits.1 limits.2 m m') =
      SameUntraced := by
    funext m m'
    apply propext
    constructor
    · intro ⟨limits, _, on, entries, depth, retraced⟩
      exact ⟨⟨limits.2, on, entries, depth⟩, retraced⟩
    · intro ⟨t, retraced⟩
      exact ⟨(m.config.traceLimit, t.limit), rfl, t.on, t.entries, t.depth, retraced⟩
  rwa [same] at union

/-- A function does not read the trace: it does alike on machines that differ in their traces
alone, if what it asks of them is done alike. -/
def NativeFunction.TraceBlind (f : NativeFunction) : Prop :=
  f.Respects (fun _ => False) SameUntraced

/-- What a machine shows apart from its trace. -/
def visible (m : Machine) : Stack × Stack × Dictionary × Console :=
  (m.data, m.returns, m.dictionary, m.console)

theorem SameUntraced.visible_eq {m m' : Machine} (same : SameUntraced m m') :
    m'.visible = m.visible := by
  obtain ⟨t, rfl⟩ := same
  rfl

/-- Two operations look the same if one ends where the other does and what is seen of their ends
is equal. -/
theorem map_eq_of_forth_back {α β : Type} {first second : Option α} {view : α → β}
    (forth : ∀ o, first = some o → ∃ o', second = some o' ∧ view o' = view o)
    (back : ∀ o, second = some o → ∃ o', first = some o') :
    second.map view = first.map view := by
  cases ended : first with
  | some o =>
      obtain ⟨o', reached, seen⟩ := forth o ended
      rw [reached, Option.map_some, Option.map_some, seen]
  | none =>
      cases reached : second with
      | none => rfl
      | some o =>
          obtain ⟨o', contrary⟩ := back o reached
          rw [ended] at contrary
          cases contrary

/-- Another trace changes nothing that is seen of how a machine ends what is asked of it or a
load: whether it does, with which error, and the stacks, the dictionary and the console that it
leaves. -/
structure TraceUnseen (interpreter : Interpreter) (load : Machine → String → Option Source.Loaded)
    (m : Machine) (t : TraceState) : Prop where
  asked : ∀ invocation,
    (interpreter (m.retraced t) invocation).map (fun o => (o.error, o.machine.visible)) =
      (interpreter m invocation).map fun o => (o.error, o.machine.visible)
  loaded : ∀ source,
    (load (m.retraced t) source).map (fun loaded => (loaded.error, loaded.machine.visible)) =
      (load m source).map fun loaded => (loaded.error, loaded.machine.visible)

/-- Where related machines end alike in both directions, another trace is not seen. -/
theorem traceUnseen_interpret {natives : Natives}
    (blind : natives.OwnOr NativeFunction.TraceBlind) (bound : Nat) (m : Machine)
    (t : TraceState) :
    TraceUnseen (natives.interpret bound) (natives.interpret bound).load m t := by
  have related : SameUntraced m (m.retraced t) := ⟨t, rfl⟩
  have dictionary : ∀ {m m'}, SameUntraced m m' → m'.dictionary = m.dictionary := by
    intro m m' ⟨t, retraced⟩
    rw [retraced]
    rfl
  constructor
  · intro invocation
    have follows : ∀ {m m'}, SameUntraced m m' → Follows (fun _ => False) SameUntraced
        (natives.interpret bound m invocation) (natives.interpret bound m' invocation) :=
      fun same => simulation_sameUntraced.interpret dictionary blind bound same invocation
    apply map_eq_of_forth_back
    · intro o ended
      obtain ⟨o', reached, alike⟩ := (follows related).exists_endAlike ended
      exact ⟨o', reached, by rw [alike.error, alike.machine.visible_eq]⟩
    · intro o ended
      obtain ⟨o', reached, _⟩ := (follows related.symm).exists_endAlike ended
      exact ⟨o', reached⟩
  · intro source
    have follows : ∀ {m m'}, SameUntraced m m' → LoadFollows (fun _ => False) SameUntraced
        ((natives.interpret bound).load m source) ((natives.interpret bound).load m' source) :=
      fun same => simulation_sameUntraced.load_of_host dictionary blind bound same source
    apply map_eq_of_forth_back
    · intro loaded ended
      obtain ⟨loaded', reached, alike⟩ := (follows related).exists_endAlike ended
      exact ⟨loaded', reached, by rw [alike.error, alike.machine.visible_eq]⟩
    · intro loaded ended
      obtain ⟨loaded', reached, _⟩ := (follows related.symm).exists_endAlike ended
      exact ⟨loaded', reached⟩

/-- **Tracing does not interfere.** Another trace is not seen in anything that the machine is
asked for or loads, also with host functions behind its native words that do not read the
trace. -/
theorem trace_unseen (bound : Nat) (m : Machine) (t : TraceState) :
    TraceUnseen (interpreter bound) (fun m source => m.load bound source) m t ∧
      ∀ natives : Natives, natives.OwnOr NativeFunction.TraceBlind →
        TraceUnseen (natives.interpret bound) (natives.interpret bound).load m t := by
  constructor
  · rw [← Natives.load_own, ← Natives.interpret_own]
    apply traceUnseen_interpret
    exact fun native => .inl rfl
  · intro natives blind
    exact traceUnseen_interpret blind bound m t

/-- A host function that turns tracing on, runs tokens, catches their error and tells whether there
was none. -/
def attempt (tokens : List String) : NativeFunction := fun interpreter m =>
  (interpreter (m.setTracing true) (.run tokens)).bind fun o =>
    some (o.machine.push (.bool o.error.isNone))

theorem traceBlind_attempt (tokens : List String) : (attempt tokens).TraceBlind := by
  have run : NativeFunction.TraceBlind fun interpreter m =>
      interpreter (m.setTracing true) (.run tokens) := by
    intro interpreter interpreter' followed m m' ⟨t, retraced⟩
    apply followed
    · exact ⟨{ t with on := true }, by rw [retraced]; rfl⟩
    · exact Invocation.admitted_eq _
  have tell : ∀ error : Option Error, NativeFunction.TraceBlind fun _ m =>
      some (m.push (.bool error.isNone)) := by
    intro error
    apply NativeFunction.respects_of_operation
    intro m m' same
    exact simulation_sameUntraced.push same _ trivial
  exact run.handle tell

/-- A host function runs a word that is not there. The machines trace a different number of
tokens, and both end with the number and the report on the stack. -/
theorem trace_unseen_of_attempt :
    let natives := Natives.withHost 7 (attempt ["1", "NOPE"])
    let m := ((ofConfig .default .millennium).define "TRY"
      { body := .native ⟨7, .host .noop⟩ }).machine
    let t : TraceState := ⟨1, true, [⟨3, "EARLIER", 0⟩], 5⟩
    let tokens (o : Outcome) := (o.machine.trace.map TraceEntry.token, o.machine.data.depth)
    natives.OwnOr NativeFunction.TraceBlind ∧
      (natives.interpret 2 m (.run ["TRY"])).map tokens = some (["1", "NOPE"], 2) ∧
      (natives.interpret 2 (m.retraced t) (.run ["TRY"])).map tokens = some (["NOPE"], 2) ∧
      (natives.interpret 2 (m.retraced t) (.run ["TRY"])).map
          (fun o => (o.error, o.machine.visible)) =
        (natives.interpret 2 m (.run ["TRY"])).map fun o => (o.error, o.machine.visible) := by
  intro natives m t tokens
  have blind : natives.OwnOr NativeFunction.TraceBlind :=
    Natives.ownOr_withHost (traceBlind_attempt _) 7
  refine ⟨blind, ?_, ?_, ((trace_unseen 2 m t).2 natives blind).asked (.run ["TRY"])⟩
  · decide +kernel
  · decide +kernel

end Machine

end WordMachine
