import Mathlib.Data.List.DropRight
import Mathlib.Data.List.Induction
import WordMachine.Proofs.Machine.AtRest
import WordMachine.Proofs.Machine.Journal

/-! # The trace is the tail of the journal

While a machine traces, its trace holds the last entries of what it held before and of what was
dispatched since, as many as its limit allows. This is so for everything that is asked of the
machine and for loads, also when they fail on the way, unless a native word clears the trace or
turns tracing off. Native words may read the trace as they like.
-/

namespace WordMachine

namespace Machine

/-! ## Bounded traces -/

/-- One more entry for the tail of a list is the tail of the list with the entry. -/
theorem extendTrace_rtake (limit : Nat) (all : List TraceEntry) (entry : TraceEntry) :
    extendTrace limit (all.rtake limit) entry = (all ++ [entry]).rtake limit := by
  cases limit with
  | zero => simp [extendTrace]
  | succ limit =>
      rw [List.rtake_concat_succ, extendTrace, if_neg (Nat.succ_ne_zero limit)]
      apply congrArg (· ++ [entry])
      unfold List.rtake
      rw [List.length_drop]
      split
      · -- The tail is full and gives up its oldest entry.
        rw [List.drop_drop]
        congr 1
        omega
      · congr 1
        omega

theorem foldl_extendTrace {limit : Nat} {trace : List TraceEntry} (within : trace.length ≤ limit)
    (entries : List TraceEntry) :
    entries.foldl (extendTrace limit) trace = (trace ++ entries).rtake limit := by
  induction entries using List.reverseRecOn with
  | nil =>
      rw [List.append_nil, List.rtake, Nat.sub_eq_zero_of_le within]
      rfl
  | append_singleton earlier entry ih =>
      rw [List.foldl_concat, ih, extendTrace_rtake, List.append_assoc]

end Machine

namespace TraceState

/-- The trace after tokens are dispatched: each is recorded below the calls in progress, if the
trace grows. -/
def after (t : TraceState) (entries : List TraceEntry) : TraceState :=
  { t with
    entries :=
      if t.on then (entries.map (.raised t.depth)).foldl (Machine.extendTrace t.limit) t.entries
      else t.entries }

@[simp]
theorem after_nil (t : TraceState) : t.after [] = t := by
  unfold after
  split <;> rfl

theorem after_append (t : TraceState) (first later : List TraceEntry) :
    t.after (first ++ later) = (t.after first).after later := by
  unfold after
  cases t.on with
  | false => rfl
  | true => simp only [List.map_append, List.foldl_append, ↓reduceIte]

/-- What is recorded one call deeper is raised by one. -/
theorem after_map_raised (t : TraceState) (entries : List TraceEntry) :
    t.after (entries.map (.raised 1)) =
      { ({ t with depth := t.depth + 1 } : TraceState).after entries with depth := t.depth } := by
  have raised : TraceEntry.raised t.depth ∘ TraceEntry.raised 1 =
      TraceEntry.raised (t.depth + 1) := by
    funext entry
    rw [Function.comp_apply, TraceEntry.raised_raised, Nat.add_comm]
  simp only [after, List.map_map, raised]

end TraceState

namespace Machine

theorem traceState_record (m : Machine) (token : String) :
    (m.record token).traceState = m.traceState.after [⟨0, token, m.data.depth⟩] := by
  unfold record traceState TraceState.after TraceEntry.raised
  cases tracing : m.tracing with
  | false => simp only [tracing, Bool.false_eq_true, ↓reduceIte]
  | true => simp

variable {programs : Native → HostProgram}

/-- Doing a task changes the trace by what its journal dispatches and by nothing else, by induction
on the rules. -/
theorem Performs.traceState_eq (leaves : ∀ native, (programs native).Every LeavesTrace)
    {bound : Nat} {m : Machine} {task : Task} {o : Outcome} {journal : List Event}
    (performs : Performs programs bound m task o journal) (allowed : task.Every LeavesTrace) :
    o.machine.traceState = m.traceState.after (Event.entries journal) := by
  induction performs with
  | done m | finish m => exact (TraceState.after_nil _).symm
  | next _ _ ih_first ih =>
      rw [Event.entries_append, TraceState.after_append, ← ih_first trivial]
      exact ih trivial
  | stop _ ih => exact ih trivial
  | @numeral _ m token x _ =>
      have pushed := (blind_onStack (StackM.push (.number x))).traceState_eq (m.record token)
      exact pushed.trans (traceState_record m token)
  | @word _ m token _ journal _ _ ih =>
      have split : Event.entries (.dispatched ⟨0, token, m.data.depth⟩ :: journal) =
          [⟨0, token, m.data.depth⟩] ++ Event.entries journal := rfl
      rw [split, TraceState.after_append, ← traceState_record]
      exact ih trivial
  | missing _ => exact (TraceState.after_nil _).symm
  | found _ _ ih => exact ih trivial
  | @compiled _ m _ o journal _ ih =>
      have left : o.machine.leave.traceState =
          { o.machine.traceState with depth := o.machine.traceState.depth - 1 } := rfl
      rw [left, ih trivial, Event.entries_map_raised, TraceState.after_map_raised]
      rfl
  | native _ ih => exact ih (leaves _)
  | look _ ih => exact ih (allowed _)
  | @operate _ m _ _ _ _ _ ih => rw [ih (allowed.2 _), allowed.1 m]
  | ask _ _ ih_asked ih =>
      rw [Event.entries_append, TraceState.after_append, ← ih_asked trivial, ih (allowed _)]

/-! ## Loads -/

/-- An item that dispatches nothing leaves the trace as it is. -/
theorem traceState_of_edits {m : Machine} {item : Source.Item} {loaded : Source.Loaded}
    (edits : ∀ interpreter : Interpreter, interpreter.perform m item = some loaded) :
    loaded.machine.traceState = m.traceState := by
  have edited := edits fun _ _ => none
  cases item with
  | comment =>
      cases edited
      rfl
  | definition name effect body =>
      cases edited
      exact (blind_define name.text _).traceState_eq m
  | «forget» name =>
      cases edited
      exact (blind_forget name.text).traceState_eq m
  | dispatch token => cases edited

theorem PerformsItems.traceState_eq (leaves : ∀ native, (programs native).Every LeavesTrace)
    {bound : Nat} {m : Machine} {items : List Source.Item} {loaded : Source.Loaded}
    {journal : List Event} (performs : PerformsItems programs bound m items loaded journal) :
    loaded.machine.traceState = m.traceState.after (Event.entries journal) := by
  induction performs with
  | done m => exact (TraceState.after_nil _).symm
  | dispatch dispatched _ ih =>
      rw [Event.entries_append, TraceState.after_append,
        ← dispatched.traceState_eq leaves trivial]
      exact ih
  | dispatchFails dispatched => exact dispatched.traceState_eq leaves trivial
  | edit edits _ ih => rw [ih, ← traceState_of_edits edits]
  | editFails edits => rw [traceState_of_edits edits, Event.entries_nil, TraceState.after_nil]

/-! ## Traces -/

/-- What is left of the trace of a machine and of tokens that are dispatched below the calls in
progress: the last entries, as many as the limit of the trace allows. -/
def traceTail (m : Machine) (entries : List TraceEntry) : List TraceEntry :=
  (m.trace ++ entries.map (TraceEntry.raised m.callDepth)).rtake m.config.traceLimit

/-- Whatever is asked of a machine or loaded, there is a journal of it, and the trace afterwards is
the tail of the trace before and the tokens of this journal. -/
structure TracesTail (programs : Native → HostProgram) (bound : Nat) (interpreter : Interpreter)
    (load : Machine → String → Option Source.Loaded) (m : Machine) : Prop where
  asked : ∀ {invocation o}, interpreter m invocation = some o →
    (∃ journal, Performs programs bound m (.invocation invocation) o journal) ∧
      ∀ journal, Performs programs bound m (.invocation invocation) o journal →
        o.machine.trace = m.traceTail (Event.entries journal)
  loaded : ∀ {source loaded}, load m source = some loaded →
    (∃ journal, Loads programs bound m source loaded journal) ∧
      ∀ journal, Loads programs bound m source loaded journal →
        loaded.machine.trace = m.traceTail (Event.entries journal)

/-- A trace that grows and is within its limit ends as the tail. -/
theorem trace_eq_traceTail {m last : Machine} {entries : List TraceEntry} (on : m.tracing = true)
    (within : m.trace.length ≤ m.config.traceLimit)
    (same : last.traceState = m.traceState.after entries) : last.trace = m.traceTail entries := by
  calc last.trace = (m.traceState.after entries).entries := congrArg TraceState.entries same
    _ = (entries.map (TraceEntry.raised m.callDepth)).foldl (extendTrace m.config.traceLimit)
          m.trace := if_pos on
    _ = m.traceTail entries := foldl_extendTrace within _

theorem tracesTail_ofPrograms (leaves : ∀ native, (programs native).Every LeavesTrace)
    (bound : Nat) {m : Machine} (on : m.tracing = true)
    (within : m.trace.length ≤ m.config.traceLimit) :
    TracesTail programs bound ((Natives.ofPrograms programs).interpret bound)
      ((Natives.ofPrograms programs).interpret bound).load m where
  asked ended := by
    refine ⟨exists_performs ended, fun journal performs => ?_⟩
    exact trace_eq_traceTail on within (performs.traceState_eq leaves trivial)
  loaded ended := by
    refine ⟨exists_loads ended, fun journal ⟨_, performs⟩ => ?_⟩
    exact trace_eq_traceTail on within (performs.traceState_eq leaves)

/-- **The trace is the tail of the journal.** A machine that traces ends everything that is asked of
it and every load with the last entries of its old trace and of the tokens that are dispatched, also
with any programs of a host behind its native words that leave the trace as it is. The machines that
a host reaches have a trace within its limit, and between operations no call is in progress, so that
tokens at the top have depth zero. -/
theorem trace_tail (bound : Nat) :
    (∀ m : Machine, m.tracing = true → m.trace.length ≤ m.config.traceLimit →
      TracesTail Natives.ownPrograms bound (interpreter bound)
          (fun m source => m.load bound source) m ∧
        ∀ programs, (∀ native, (programs native).Every LeavesTrace) →
          TracesTail programs bound ((Natives.ofPrograms programs).interpret bound)
            ((Natives.ofPrograms programs).interpret bound).load m) ∧
      ∀ config m, Reachable config m →
        m.trace.length ≤ m.config.traceLimit ∧ m.callDepth = 0 := by
  refine ⟨fun m on within => ⟨?_, fun programs leaves => ?_⟩, fun config m reachable => ?_⟩
  · have own := tracesTail_ofPrograms leavesTrace_own bound on within
    rwa [Natives.ofPrograms_own, Natives.load_own, Natives.interpret_own] at own
  · exact tracesTail_ofPrograms leaves bound on within
  · have bounds := reachable.inBounds
    rw [bounds.configured]
    exact ⟨bounds.trace, bounds.calls⟩

/-- An earlier run failed one call deep and filled a trace of four entries. A load then calls a word
that calls another, and the next token fails at the top. -/
theorem trace_tail_of_nested :
    let config : Config := ⟨4, 4, 4, 4⟩
    let m := ((((((ofConfig config .millennium).define "DUP"
      { body := .native ⟨0, .core .dup⟩ }).machine.define "DROP"
      { body := .native ⟨1, .core .drop⟩ }).machine.define "INNER"
      (.ofTokens ["DUP", "DROP"])).machine.define "OUTER"
      (.ofTokens ["INNER", "DUP"])).machine.define "HALT"
      (.ofTokens ["1", "2", "NOPE"])).machine.setTracing true
    ∃ earlier loaded journal, m.run 2 "HALT" = some (earlier.failed (.undefinedWord "NOPE")) ∧
      earlier.trace = [⟨0, "HALT", 0⟩, ⟨1, "1", 0⟩, ⟨1, "2", 1⟩, ⟨1, "NOPE", 2⟩] ∧
      earlier.load 3 "OUTER NOPE 5" = some loaded ∧
      Loads Natives.ownPrograms 3 earlier "OUTER NOPE 5" loaded journal ∧
      loaded.machine.trace = (earlier.trace ++ Event.entries journal).rtake 4 ∧
      loaded.machine.trace = [⟨2, "DUP", 2⟩, ⟨2, "DROP", 3⟩, ⟨1, "DUP", 2⟩, ⟨0, "NOPE", 3⟩] := by
  intro config m
  have runs : (m.run 2 "HALT").map (fun o =>
      (o.error, o.machine.trace, o.machine.tracing, o.machine.config)) =
      some (some (.undefinedWord "NOPE"),
        [⟨0, "HALT", 0⟩, ⟨1, "1", 0⟩, ⟨1, "2", 1⟩, ⟨1, "NOPE", 2⟩], true, config) := by
    decide +kernel
  have loads : ((m.run 2 "HALT").bind fun o => (o.machine.load 3 "OUTER NOPE 5").map fun loaded =>
      loaded.machine.trace) =
      some [⟨2, "DUP", 2⟩, ⟨2, "DROP", 3⟩, ⟨1, "DUP", 2⟩, ⟨0, "NOPE", 3⟩] := by
    decide +kernel
  obtain ⟨⟨earlier, error⟩, ran, seen⟩ := Option.map_eq_some_iff.mp runs
  simp only [Prod.mk.injEq] at seen
  obtain ⟨rfl, trace, on, configured⟩ := seen
  rw [ran, Option.bind_some] at loads
  obtain ⟨loaded, ended, last⟩ := Option.map_eq_some_iff.mp loads
  have defined : ∀ {m}, Reachable config m → ∀ name definition,
      Reachable config (m.define name definition).machine :=
    fun reachable name definition => reachable.step (.define name definition) rfl
  have ready : Reachable config m := by
    apply Reachable.step (.setTracing true) _ rfl
    iterate 5 apply defined
    exact .initial .millennium
  have reached : Reachable config earlier := by
    apply ready.step (.run 2 "HALT")
    rw [perform, ran]
    rfl
  obtain ⟨within, rest⟩ := (trace_tail 3).2 config earlier reached
  obtain ⟨⟨journal, journaled⟩, tail⟩ := ((trace_tail 3).1 earlier on within).1.loaded ended
  refine ⟨earlier, loaded, journal, ran, trace, ended, journaled, ?_, last⟩
  have same : (Event.entries journal).map (TraceEntry.raised 0) = Event.entries journal :=
    List.map_id'' TraceEntry.raised_zero _
  rw [tail journal journaled, traceTail, rest, configured, same]

/-- A host clears the trace in a native word. The run of this word dispatches a token and leaves no
entry. A load that fails at a name to forget did not dispatch it, so that what fails has no entry
either. -/
theorem trace_ne_tail_of_clearTrace :
    let config : Config := ⟨4, 4, 4, 4⟩
    let native : Native := ⟨0, .host .noop⟩
    let programs : Native → HostProgram := fun _ => .operate (fun m => m.clearTrace.done) .finish
    let m := ((ofConfig config .millennium).define "WIPE"
      { body := .native native }).machine.setTracing true
    (∃ o journal, (Natives.ofPrograms programs).interpret 0 m (.run ["WIPE"]) = some o ∧
      Performs programs 0 m (.invocation (.run ["WIPE"])) o journal ∧ o.error = none ∧
      m.traceTail (Event.entries journal) = [⟨0, "WIPE", 0⟩] ∧ o.machine.trace = []) ∧
      ∃ loaded, m.load 0 "FORGET WIPES" = some loaded ∧
        loaded.error = some ⟨.machine (.unknownWord "WIPES"), 1, 8⟩ ∧
        loaded.machine.trace = [] := by
  intro config native programs m
  constructor
  · have meaning : Token.classify "WIPE" = .word "WIPE" := by decide +kernel
    have known : (m.record "WIPE").dictionary.body? "WIPE" = some (.native native) := by
      decide +kernel
    have acted : ∀ start : Machine, Performs programs 0 start
        (.invocation (.executeBody (.native native))) start.clearTrace.done [] := by
      intro start
      exact .native (.operate (.finish start.clearTrace none))
    have wiped := Performs.next (.word meaning (.found known (acted _))) (.done _)
    exact ⟨_, _, wiped.performTask, wiped, rfl, by decide +kernel, rfl⟩
  · have loads : (m.load 0 "FORGET WIPES").map (fun loaded =>
        (loaded.error, loaded.machine.trace)) =
        some (some ⟨.machine (.unknownWord "WIPES"), 1, 8⟩, []) := by
      decide +kernel
    obtain ⟨loaded, ended, seen⟩ := Option.map_eq_some_iff.mp loads
    simp only [Prod.mk.injEq] at seen
    exact ⟨loaded, ended, seen⟩

end Machine

end WordMachine
