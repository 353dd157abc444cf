import WordMachine.Proofs.Machine.Bounds
import WordMachine.Proofs.Machine.Unfolding

/-! # Machines between operations

Between the operations of a host a machine is at rest: it has the bounds that it was made with,
its trace is no longer than they allow, its return stack is empty and no call is in progress. This
holds after failures too, however deep in compiled words they happened, and with host functions
behind native words that perform operations and ask the machine to run something, in any order and
number and whatever they meet.
-/

namespace WordMachine

namespace Machine

/-! ## Bounds and calls -/

/-- A machine has the bounds of a configuration, its trace is no longer than they allow, and a
given number of calls is in progress. -/
structure InBounds (config : Config) (depth : Nat) (m : Machine) : Prop extends Fits config m where
  trace : m.trace.length ≤ config.traceLimit
  calls : m.callDepth = depth

/-- A trace that is within its limit stays so: a full one gives up its oldest entry. -/
theorem length_extendTrace_le {limit : Nat} {trace : List TraceEntry}
    (within : trace.length ≤ limit) (entry : TraceEntry) :
    (extendTrace limit trace entry).length ≤ limit := by
  unfold extendTrace
  split
  · exact within
  · rw [List.length_append, List.length_singleton]
    split
    · rw [List.length_drop]
      omega
    · omega

namespace InBounds

variable {config : Config} {depth : Nat} {m : Machine}

/-- An operation that is blind to the trace keeps the bounds if it keeps those of the rest. -/
theorem blind (bounds : m.InBounds config depth) {f : Machine → Outcome} (blind : Blind f)
    (fits : (f m).machine.Fits config) : (f m).machine.InBounds config depth := by
  have same := blind.traceState_eq m
  have trace : (f m).machine.trace = m.trace := congrArg TraceState.entries same
  have calls : (f m).machine.callDepth = m.callDepth := congrArg TraceState.depth same
  exact { fits with trace := trace ▸ bounds.trace, calls := calls.trans bounds.calls }

theorem push (bounds : m.InBounds config depth) (v : Value) :
    (m.push v).machine.InBounds config depth :=
  bounds.blind (blind_onStack _) (bounds.toFits.push v)

theorem popped (bounds : m.InBounds config depth) : m.popped.InBounds config depth :=
  bounds.blind (blind_onStack _) ((hostInvariant_fits config).popped bounds.toFits)

theorem define (bounds : m.InBounds config depth) (name : String) (definition : Definition) :
    (m.define name definition).machine.InBounds config depth :=
  bounds.blind (blind_define name definition) (bounds.toFits.define name definition)

theorem forget (bounds : m.InBounds config depth) (name : String) :
    (m.forget name).machine.InBounds config depth :=
  bounds.blind (blind_forget name) (bounds.toFits.forget name)

theorem record (bounds : m.InBounds config depth) (token : String) :
    (m.record token).InBounds config depth := by
  refine { bounds.toFits.record token with trace := ?_, calls := ?_ }
  · unfold Machine.record
    rw [bounds.configured]
    split
    · exact length_extendTrace_le bounds.trace _
    · exact bounds.trace
  · exact (record_callDepth m token).trans bounds.calls

/-- An operation that runs nothing keeps the bounds. -/
theorem direct (bounds : m.InBounds config depth) {operation : HostOperation}
    (direct : operation.Direct) {next : Machine} (performed : m.perform operation = some next) :
    next.InBounds config depth := by
  have fits := hostInvariant_fits config
  cases operation with
  | run | load | execute | executeWord | dispatch => exact direct.elim
  | push v =>
      cases performed
      exact bounds.push v
  | pop =>
      cases performed
      exact bounds.popped
  | define name definition =>
      cases performed
      exact bounds.define name definition
  | «forget» name =>
      cases performed
      exact bounds.forget name
  | install identity parts =>
      cases performed
      exact bounds.blind (blind_defineAll _) (fits.operations.defineAll bounds.toFits _)
  | restore s =>
      cases performed
      exact bounds.blind (blind_restore s) (fits.operations.restore bounds.toFits s)
  | setTracing on =>
      cases performed
      exact { bounds with }
  | clearTrace =>
      cases performed
      exact { bounds with trace := Nat.zero_le _ }

end InBounds

/-- All that a host does keeps the bounds of a machine and gives back the calls that it makes. -/
theorem keptByHosts_inBounds (config : Config) :
    KeptByHosts (fun _ _ => True) (InBounds config) where
  core bounds word :=
    bounds.blind (blind_onStack _) ((hostInvariant_fits config).core bounds.toFits word)
  console bounds word := bounds.blind (blind_consoleWord word) (bounds.toFits.consoleWord word)
  push bounds v := bounds.push v
  define bounds name _ _ := bounds.define name _
  forget bounds name := bounds.forget name
  record bounds token := bounds.record token
  enter bounds := { bounds with calls := congrArg (· + 1) bounds.calls }
  leave bounds := { bounds with calls := congrArg (· - 1) bounds.calls }
  resolved bounds _ _ _ found :=
    { bounds with
      toFits := ((hostInvariant_fits config).resolved bounds.toFits _ _ _ found).2 }
  operate bounds direct _ performed := bounds.direct direct performed

/-- A machine that a host reaches is at rest, by induction on the operations. -/
theorem Reachable.inBounds {config : Config} {m : Machine} (reachable : Reachable config m) :
    m.InBounds config 0 := by
  induction reachable with
  | initial clock => exact ⟨(Machine.Reachable.initial clock).fits, Nat.zero_le _, rfl⟩
  | environment clock console _ ih => exact { ih with }
  | hosted hosts operation _ performed ih =>
      exact (keptByHosts_inBounds config).perform hosts 0 ih (fun _ => trivial) performed
  | clone _ cloned ih =>
      obtain ⟨_, _, _, _, _, _, rfl⟩ := clone_ok cloned
      exact ⟨ih.toFits.clone cloned, Nat.zero_le _, rfl⟩

/-- **Machines are at rest between operations.** Every machine that a host reaches has the
configuration that it was made with, a data stack with that limit and no more values, an empty
return stack, a dictionary with that limit of versions, a trace that is no longer than allowed and
no call in progress. So it is with host functions behind native words that act by operations and by
what they ask of the machine. -/
theorem inBounds_of_reachable {config : Config} {m : Machine} (reachable : Reachable config m) :
    m.InBounds config 0 :=
  reachable.inBounds

/-- A host function that defines a word, runs it, catches its error and tells whether there was
none. -/
def defineAndTry (name : String) (tokens : List String) : NativeFunction := fun interpreter m =>
  (interpreter (m.define name (.ofTokens tokens)).machine (.run [name])).bind fun o =>
    some (o.machine.push (.bool o.error.isNone))

theorem actsByMoves_defineAndTry (name : String) (tokens : List String) :
    (defineAndTry name tokens).ActsByMoves := by
  intro interpreter m o ended
  obtain ⟨tried, ran, pushed⟩ := Option.bind_eq_some_iff.mp ended
  cases pushed
  have defined : HostMove (fun _ _ => True) interpreter m
      (m.define name (.ofTokens tokens)).machine :=
    .operate (.define name (.ofTokens tokens)) trivial trivial rfl
  have told : HostMove (fun _ _ => True) interpreter tried.machine
      (tried.machine.push (.bool tried.error.isNone)).machine :=
    .operate (.push (.bool tried.error.isNone)) trivial trivial rfl
  exact ((Relation.ReflTransGen.single defined).tail (.ask ran)).tail told

/-- A compiled word calls a host function, which meets an error two calls deep and goes on. Then the
stack is full, and the next number ends the run one call deep. -/
theorem inBounds_of_reachable_of_error :
    let config : Config := ⟨2, 2, 1, 3⟩
    let natives := Natives.withHost 7 (defineAndTry "X" ["1", "NOPE"])
    let m := ((((ofConfig config .millennium).define "TRY"
      { body := .native ⟨7, .host .noop⟩ }).machine.define "OUTER"
      (.ofTokens ["TRY", "5"])).machine.setTracing true)
    natives.OwnOr NativeFunction.ActsByMoves ∧
      ∃ o, natives.interpret 3 m (.run (Text.words "OUTER")) = some o ∧
        o.error = some (.stackOverflow "data" 2) ∧
        o.machine.trace.map (fun entry => (entry.depth, entry.token)) =
          [(2, "1"), (2, "NOPE"), (1, "5")] ∧
        o.machine.InBounds config 0 := by
  intro config natives m
  have hosts : natives.OwnOr NativeFunction.ActsByMoves :=
    Natives.ownOr_withHost (actsByMoves_defineAndTry _ _) 7
  have ends : (natives.interpret 3 m (.run (Text.words "OUTER"))).map (fun o =>
      (o.error, o.machine.trace.map fun entry => (entry.depth, entry.token))) =
      some (some (.stackOverflow "data" 2), [(2, "1"), (2, "NOPE"), (1, "5")]) := by
    decide +kernel
  obtain ⟨o, ended, values⟩ := Option.map_eq_some_iff.mp ends
  obtain ⟨error, trace⟩ := Prod.mk.inj values
  have ready : Reachable config m :=
    (((Reachable.initial .millennium).step (.define "TRY" _) rfl).step (.define "OUTER" _)
      rfl).step (.setTracing true) rfl
  have performed : natives.perform m (.run 3 "OUTER") = some o.machine := by
    rw [Natives.perform, ended, Option.map_some]
  have reached := ready.hosted hosts (.run 3 "OUTER") performed
  exact ⟨hosts, o, ended, error, trace, inBounds_of_reachable reached⟩

end Machine

end WordMachine
