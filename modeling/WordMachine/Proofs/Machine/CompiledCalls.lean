import WordMachine.Proofs.Machine.TraceTail
import WordMachine.Proofs.Source.PlainText

/-! # Calling a compiled word is running its text

A compiled word that is executed does what a run of its tokens does, written as a text with single
spaces between them: it ends where the run ends, with the same error or none, and leaves the same
machine. Only the trace tells the two apart, since what the word dispatches stands one level deeper.
Native words on the way may redefine or forget the word that is running, clear the trace and switch
tracing. What they must not do is to look how deep they are called.
-/

namespace WordMachine

namespace Text

/-- A text that is a field as a whole: it has characters, and none of them is blank. -/
structure IsField (text : String) : Prop where
  nonempty : text ≠ ""
  solid : ∀ c ∈ text.toList, isBlank c = false

/-- A field has a character, and none is a blank. -/
theorem isField_iff (text : String) :
    IsField text ↔ text ≠ "" ∧ text.toList.all (fun c => !isBlank c) = true := by
  simp only [List.all_eq_true, Bool.not_eq_true']
  exact ⟨fun field => ⟨field.nonempty, field.solid⟩, fun ⟨nonempty, solid⟩ => ⟨nonempty, solid⟩⟩

instance : DecidablePred IsField := fun text =>
  decidable_of_iff _ (isField_iff text).symm

/-- A field in progress is closed as it is. -/
theorem IsField.closeField {text : String} (field : IsField text) (rest : List (List Char)) :
    (Text.closeField text.toList rest).map String.ofList = text :: rest.map String.ofList := by
  have visible : text.toList ≠ [] := fun empty => field.nonempty (String.toList_eq_nil_iff.mp empty)
  rw [Text.closeField, if_neg visible, List.map_cons, String.ofList_toList]

/-- Splitting fields that were joined by single spaces gives them back. -/
theorem words_intercalate {fields : List String} (joined : ∀ field ∈ fields, IsField field) :
    words (" ".intercalate fields) = fields := by
  induction fields with
  | nil => rfl
  | cons first rest ih =>
      obtain ⟨field, others⟩ := List.forall_mem_cons.mp joined
      cases rest with
      | nil =>
          rw [String.intercalate_singleton, words, fields_of_solid field.solid, field.closeField]
          rfl
      | cons second rest =>
          have blank : isBlank ' ' = true := by decide
          have split : (" ".intercalate (first :: second :: rest)).toList =
              first.toList ++ ' ' :: (" ".intercalate (second :: rest)).toList := by
            rw [String.intercalate_cons_cons, String.toList_append, String.toList_append,
              List.append_assoc]
            rfl
          rw [words, split, fields_append_blank field.solid blank, field.closeField]
          exact congrArg (first :: ·) (ih others)

end Text

namespace Machine

/-! ## The same machine below other calls -/

/-- The machine with other entries in its trace and another number of calls in progress. -/
def relogged (m : Machine) (entries : List TraceEntry) (depth : Nat) : Machine :=
  { m with trace := entries, callDepth := depth }

/-- The second machine is the first but for the number of calls below which both started, `first`
and `second`. Since then the same entries were recorded, and the same of the old ones are left. -/
def SameBelow (old : List TraceEntry) (first second depth : Nat) (m m' : Machine) : Prop :=
  ∃ kept recorded : List TraceEntry, kept <:+ old ∧
    m.trace = kept ++ recorded.map (.raised first) ∧
    m.callDepth = first + depth ∧
    m' = m.relogged (kept ++ recorded.map (.raised second)) (second + depth)

/-- One more entry pushes out the same entry, however deep what was recorded stands. -/
theorem exists_extendTrace_eq (limit : Nat) (kept recorded : List TraceEntry)
    (entry : TraceEntry) :
    ∃ kept' recorded' : List TraceEntry, kept' <:+ kept ∧ ∀ levels,
      extendTrace limit (kept ++ recorded.map (.raised levels)) (entry.raised levels) =
        kept' ++ recorded'.map (.raised levels) := by
  have length : ∀ levels, (kept ++ recorded.map (TraceEntry.raised levels)).length =
      kept.length + recorded.length := by
    intro levels
    rw [List.length_append, List.length_map]
  unfold extendTrace
  simp only [length]
  by_cases closed : limit = 0
  · simp only [if_pos closed]
    exact ⟨kept, recorded, List.suffix_rfl, fun _ => rfl⟩
  · simp only [if_neg closed]
    split
    · -- The oldest entry is an old one if there is one left.
      refine ⟨kept.drop 1, recorded.drop (1 - kept.length) ++ [entry], List.drop_suffix 1 kept,
        fun levels => ?_⟩
      rw [List.drop_append, List.append_assoc, List.map_append, List.map_drop]
      rfl
    · refine ⟨kept, recorded ++ [entry], List.suffix_rfl, fun levels => ?_⟩
      rw [List.append_assoc, List.map_append]
      rfl

namespace SameBelow

variable {old : List TraceEntry} {first second depth : Nat} {m m' : Machine}

/-- A machine is the same below as many levels as are put under it. -/
theorem refl (m : Machine) (levels : Nat) :
    SameBelow m.trace m.callDepth levels 0 m (m.relogged m.trace levels) := by
  refine ⟨m.trace, [], List.suffix_rfl, ?_, rfl, ?_⟩
  · simp
  · simp

/-- Which of the two is deeper does not matter. -/
theorem symm (same : SameBelow old first second depth m m') :
    SameBelow old second first depth m' m := by
  obtain ⟨kept, recorded, suffix, trace, calls, rfl⟩ := same
  refine ⟨kept, recorded, suffix, rfl, rfl, ?_⟩
  rw [← trace, ← calls]
  rfl

/-- An operation that is blind to the trace ends alike. -/
theorem blind (same : SameBelow old first second depth m m') {f : Machine → Outcome}
    (blind : Blind f) : EndAlike (SameBelow old first second depth) (f m) (f m') := by
  obtain ⟨kept, recorded, suffix, trace, calls, rfl⟩ := same
  have state := blind.traceState_eq m
  generalize entries : kept ++ recorded.map (TraceEntry.raised second) = below
  have relogged : f (m.relogged below (second + depth)) =
      (f m).retraced ⟨m.config.traceLimit, m.tracing, below, second + depth⟩ :=
    blind.retraced m ⟨m.config.traceLimit, m.tracing, below, second + depth⟩
  rw [relogged]
  refine ⟨rfl, kept, recorded, suffix, ?_, ?_, ?_⟩
  · exact (congrArg TraceState.entries state).trans trace
  · exact (congrArg TraceState.depth state).trans calls
  · have limit : m.config.traceLimit = (f m).machine.config.traceLimit :=
      (congrArg TraceState.limit state).symm
    have on : m.tracing = (f m).machine.tracing := (congrArg TraceState.on state).symm
    rw [entries, limit, on]
    rfl

/-- Both record a token, each at its own depth. -/
theorem record (same : SameBelow old first second depth m m') (token : String) :
    SameBelow old first second depth (m.record token) (m'.record token) := by
  obtain ⟨kept, recorded, suffix, trace, calls, rfl⟩ := same
  cases tracing : m.tracing with
  | false =>
      have kept_first : m.record token = m := by simp [Machine.record, tracing]
      have kept_second : ∀ entries depth,
          (m.relogged entries depth).record token = m.relogged entries depth := by
        intro entries depth
        simp [Machine.record, relogged, tracing]
      rw [kept_first, kept_second]
      exact ⟨kept, recorded, suffix, trace, calls, rfl⟩
  | true =>
      obtain ⟨kept', recorded', shorter, extended⟩ := exists_extendTrace_eq m.config.traceLimit
        kept recorded ⟨depth, token, m.data.depth⟩
      refine ⟨kept', recorded', shorter.trans suffix, ?_, ?_, ?_⟩
      · rw [← extended first]
        simp [Machine.record, tracing, trace, calls, TraceEntry.raised, Nat.add_comm]
      · exact (record_callDepth m token).trans calls
      · rw [← extended second]
        simp [Machine.record, relogged, tracing, TraceEntry.raised, Nat.add_comm]

/-- Both enter a body. -/
theorem enter (same : SameBelow old first second depth m m') :
    SameBelow old first second (depth + 1) m.enter m'.enter := by
  obtain ⟨kept, recorded, suffix, trace, calls, rfl⟩ := same
  exact ⟨kept, recorded, suffix, trace, congrArg (· + 1) calls, rfl⟩

/-- Both leave a body. -/
theorem leave (same : SameBelow old first second (depth + 1) m m') :
    SameBelow old first second depth m.leave m'.leave := by
  obtain ⟨kept, recorded, suffix, trace, calls, rfl⟩ := same
  exact ⟨kept, recorded, suffix, trace, congrArg (· - 1) calls, rfl⟩

/-- Both count a use. -/
theorem counted (same : SameBelow old first second depth m m') (name : String) :
    SameBelow old first second depth { m with dictionary := m.dictionary.counted name }
      { m' with dictionary := m'.dictionary.counted name } := by
  obtain ⟨kept, recorded, suffix, trace, calls, rfl⟩ := same
  exact ⟨kept, recorded, suffix, trace, calls, rfl⟩

theorem data_eq (same : SameBelow old first second depth m m') : m'.data = m.data := by
  obtain ⟨_, _, _, _, _, rfl⟩ := same
  rfl

theorem dictionary_eq (same : SameBelow old first second depth m m') :
    m'.dictionary = m.dictionary := by
  obtain ⟨_, _, _, _, _, rfl⟩ := same
  rfl

/-- Both clear their traces, after which the old entries are gone on both sides. -/
theorem clearTrace (same : SameBelow old first second depth m m') :
    SameBelow old first second depth m.clearTrace m'.clearTrace := by
  obtain ⟨_, _, _, _, calls, rfl⟩ := same
  exact ⟨[], [], List.nil_suffix, rfl, calls, rfl⟩

/-- Both switch tracing. -/
theorem setTracing (same : SameBelow old first second depth m m') (on : Bool) :
    SameBelow old first second depth (m.setTracing on) (m'.setTracing on) := by
  obtain ⟨kept, recorded, suffix, trace, calls, rfl⟩ := same
  exact ⟨kept, recorded, suffix, trace, calls, rfl⟩

end SameBelow

/-! ## Programs that do not tell how deep they are called -/

namespace HostProgram

/-- Two programs do the same on machines that are the same but for the calls below them. -/
inductive Alike : HostProgram → HostProgram → Prop where
  | finish (error : Option Error) : Alike (.finish error) (.finish error)
  | look {next next' : Machine → HostProgram}
      (continues : ∀ {old first second depth m m'}, SameBelow old first second depth m m' →
        Alike (next m) (next' m')) :
      Alike (.look next) (.look next')
  | operate {operation operation' : Machine → Outcome} {next next' : Option Error → HostProgram}
      (operates : ∀ {old first second depth m m'}, SameBelow old first second depth m m' →
        EndAlike (SameBelow old first second depth) (operation m) (operation' m'))
      (continues : ∀ error, Alike (next error) (next' error)) :
      Alike (.operate operation next) (.operate operation' next')
  | ask (invocation : Invocation) {next next' : Option Error → HostProgram}
      (continues : ∀ error, Alike (next error) (next' error)) :
      Alike (.ask invocation next) (.ask invocation next')

/-- A program does not tell how deep it is called. -/
def DepthBlind (program : HostProgram) : Prop :=
  program.Alike program

/-- An operation that is blind to the trace, and nothing after it. -/
theorem depthBlind_operate {operation : Machine → Outcome} (blind : Blind operation) :
    DepthBlind (.operate operation .finish) :=
  .operate (fun same => same.blind blind) .finish

/-- The machine's own actions do not tell how deep they are called. -/
theorem depthBlind_ofAction (action : Action) : (ofAction action).DepthBlind := by
  cases action with
  | core word => exact depthBlind_operate (blind_onStack word.run)
  | console word => exact depthBlind_operate (blind_consoleWord word)
  | host action =>
      cases action with
      | push v => exact depthBlind_operate (blind_onStack _)
      | countWords =>
          apply Alike.look
          intro _ _ _ _ m m' same
          rw [same.dictionary_eq]
          exact depthBlind_operate (blind_onStack _)
      | «forget» name => exact depthBlind_operate (blind_forget name)
      | define name tokens => exact depthBlind_operate (blind_define name _)
      | run source => exact .ask _ .finish
      | fail | noop => exact .finish _

end HostProgram

/-- The machine's own native words do not tell how deep they are called. -/
theorem depthBlind_own (native : Native) : (Natives.ownPrograms native).DepthBlind :=
  HostProgram.depthBlind_ofAction native.action

/-- Two tasks do the same on machines that are the same but for the calls below them. -/
inductive Task.Alike : Task → Task → Prop where
  | invocation (invocation : Invocation) : Alike (.invocation invocation) (.invocation invocation)
  | program {program program' : HostProgram} (alike : program.Alike program') :
      Alike (.program program) (.program program')

variable {programs : Native → HostProgram}

/-- A task is done in the same way below another number of calls, by induction on the rules. -/
theorem Performs.exists_sameBelow (blind : ∀ native, (programs native).DepthBlind)
    {old : List TraceEntry} {first second : Nat} {bound : Nat} {m : Machine} {task : Task}
    {o : Outcome} {journal : List Event} (performs : Performs programs bound m task o journal)
    {depth : Nat} {m' : Machine} (same : SameBelow old first second depth m m') {task' : Task}
    (alike : task.Alike task') :
    ∃ o', Performs programs bound m' task' o' journal ∧
      EndAlike (SameBelow old first second depth) o o' := by
  induction performs generalizing depth m' task' with
  | done m =>
      cases alike
      exact ⟨_, .done m', rfl, same⟩
  | next _ _ ih_first ih =>
      cases alike
      obtain ⟨⟨next', error⟩, dispatched, ends_first⟩ := ih_first same (.invocation _)
      cases show error = none from ends_first.error
      obtain ⟨o', continues, ends⟩ := ih ends_first.machine (.invocation _)
      exact ⟨o', .next dispatched continues, ends⟩
  | @stop _ _ _ _ _ error _ _ ih =>
      cases alike
      obtain ⟨⟨last', stopped⟩, dispatched, ends⟩ := ih same (.invocation _)
      cases show stopped = some error from ends.error
      exact ⟨_, .stop dispatched, ends⟩
  | @numeral _ m token x meaning =>
      cases alike
      have ends := (same.record token).blind (blind_onStack (StackM.push (.number x)))
      rw [← same.data_eq]
      exact ⟨_, .numeral meaning, ends⟩
  | @word _ m token _ _ meaning _ ih =>
      cases alike
      obtain ⟨o', executed, ends⟩ := ih (same.record token) (.invocation _)
      rw [← same.data_eq]
      exact ⟨o', .word meaning executed, ends⟩
  | missing unknown =>
      cases alike
      rw [← same.dictionary_eq] at unknown
      exact ⟨_, .missing unknown, rfl, same⟩
  | @found _ m name _ _ _ known _ ih =>
      cases alike
      rw [← same.dictionary_eq] at known
      obtain ⟨o', executed, ends⟩ := ih (same.counted name) (.invocation _)
      exact ⟨o', .found known executed, ends⟩
  | compiled _ ih =>
      cases alike
      obtain ⟨o', called, ends⟩ := ih same.enter (.invocation _)
      exact ⟨_, .compiled called, ends.error, ends.machine.leave⟩
  | native _ ih =>
      cases alike
      obtain ⟨o', acted, ends⟩ := ih same (.program (blind _))
      exact ⟨o', .native acted, ends⟩
  | finish m error =>
      obtain ⟨_⟩ | ⟨⟨_⟩⟩ := alike
      exact ⟨_, .finish m' error, rfl, same⟩
  | look _ ih =>
      obtain _ | ⟨_ | continues⟩ := alike
      obtain ⟨o', continues, ends⟩ := ih same (.program (continues same))
      exact ⟨o', .look continues, ends⟩
  | @operate _ m _ _ _ _ _ ih =>
      obtain _ | ⟨_ | _ | ⟨operates, continues⟩⟩ := alike
      have ends_first := operates same
      obtain ⟨o', later, ends⟩ := ih ends_first.machine (.program (continues _))
      rw [← ends_first.error] at later
      exact ⟨o', .operate later, ends⟩
  | ask _ _ ih_asked ih =>
      obtain _ | ⟨_ | _ | _ | ⟨_, continues⟩⟩ := alike
      obtain ⟨reached', asked, ends_first⟩ := ih_asked same (.invocation _)
      obtain ⟨o', later, ends⟩ := ih ends_first.machine (.program (continues _))
      rw [← ends_first.error] at later
      exact ⟨o', .ask asked later, ends⟩

/-- Two ends of what started on one machine are the same but for the trace: what was recorded on the
way is one level deeper in the second. -/
structure OneDeeper (m : Machine) (o o' : Outcome) : Prop where
  error : o'.error = o.error
  machine : ∃ kept recorded, kept <:+ m.trace ∧ o.machine.trace = kept ++ recorded ∧
    o'.machine = { o.machine with trace := kept ++ recorded.map (TraceEntry.raised 1) }

/-- What ends alike inside a compiled body is one level deeper once the body is left. -/
theorem oneDeeper_of_sameBelow {m : Machine} {o inner : Outcome}
    (ends : EndAlike (SameBelow m.trace m.callDepth (m.callDepth + 1) 0) o inner) :
    OneDeeper m o { inner with machine := inner.machine.leave } := by
  obtain ⟨error, kept, recorded, old, trace, calls, same⟩ := ends
  refine ⟨error, kept, recorded.map (.raised m.callDepth), old, trace, ?_⟩
  have raised : (recorded.map (TraceEntry.raised m.callDepth)).map (TraceEntry.raised 1) =
      recorded.map (TraceEntry.raised (m.callDepth + 1)) := by
    rw [List.map_map]
    apply List.map_congr_left
    intro entry _
    exact TraceEntry.raised_raised m.callDepth 1 entry
  have level : o.machine.callDepth = m.callDepth := calls
  rw [raised, same]
  change { o.machine.relogged _ _ with callDepth := m.callDepth + 1 - 1 } = _
  rw [Nat.add_sub_cancel, ← level]
  rfl

/-! ## Calls -/

/-- Executing a word and running a text end together, whatever the bounds on nested calls, and the
word does what the text does one level deeper. -/
structure RunsText (m : Machine) (execute run : Nat → Option Outcome) : Prop where
  ends : (∃ bound o, execute bound = some o) ↔ ∃ bound o, run bound = some o
  alike : ∀ {bound bound' o o'}, run bound = some o → execute bound' = some o' → OneDeeper m o o'

/-- Executing a compiled word runs its tokens one level deeper. -/
theorem interpret_execute_eq_some_iff (natives : Natives) {bound : Nat} {m : Machine}
    {name : String} {tokens : List String} {o : Outcome}
    (compiled : m.dictionary.body? name = some (.compiled tokens)) :
    natives.interpret bound m (.execute name) = some o ↔
      ∃ lower inner, bound = lower + 1 ∧
        natives.interpret lower { m with dictionary := m.dictionary.counted name }.enter
          (.run tokens) = some inner ∧
        o = { inner with machine := inner.machine.leave } := by
  rw [Natives.interpret_execute, compiled]
  dsimp only
  cases bound with
  | zero =>
      constructor
      · intro ended
        cases ended
      · rintro ⟨_, _, zero, _⟩
        cases zero
  | succ bound =>
      rw [Natives.interpret_compiled, Option.map_eq_some_iff]
      constructor
      · rintro ⟨inner, ended, rfl⟩
        exact ⟨bound, inner, rfl, ended, rfl⟩
      · rintro ⟨lower, inner, same, ended, rfl⟩
        cases Nat.succ.inj same
        exact ⟨inner, ended, rfl⟩

/-- A compiled body and its text start alike and are run by the same rules. -/
theorem runsText_ofPrograms (blind : ∀ native, (programs native).DepthBlind) {m : Machine}
    {name : String} {tokens : List String}
    (compiled : m.dictionary.body? name = some (.compiled tokens)) :
    RunsText { m with dictionary := m.dictionary.counted name }
      (fun bound => (Natives.ofPrograms programs).interpret bound m (.execute name))
      (fun bound => (Natives.ofPrograms programs).interpret bound
        { m with dictionary := m.dictionary.counted name } (.run tokens)) := by
  generalize counted : { m with dictionary := m.dictionary.counted name } = start
  have entered : SameBelow start.trace start.callDepth (start.callDepth + 1) 0 start start.enter :=
    .refl start (start.callDepth + 1)
  constructor
  · constructor
    · rintro ⟨_, _, ended⟩
      obtain ⟨lower, inner, rfl, called, rfl⟩ :=
        (interpret_execute_eq_some_iff _ compiled).mp ended
      rw [counted] at called
      obtain ⟨journal, inside⟩ := exists_performs called
      obtain ⟨o, outside, _⟩ := inside.exists_sameBelow blind entered.symm (.invocation _)
      exact ⟨lower, o, outside.performTask⟩
    · rintro ⟨bound, o, ended⟩
      obtain ⟨journal, outside⟩ := exists_performs ended
      obtain ⟨inner, inside, _⟩ := outside.exists_sameBelow blind entered (.invocation _)
      refine ⟨bound + 1, { inner with machine := inner.machine.leave },
        (interpret_execute_eq_some_iff _ compiled).mpr ?_⟩
      rw [counted]
      exact ⟨bound, inner, rfl, inside.performTask, rfl⟩
  · intro bound bound' o o' ran ended
    obtain ⟨lower, inner, rfl, called, rfl⟩ :=
      (interpret_execute_eq_some_iff _ compiled).mp ended
    rw [counted] at called
    obtain ⟨_, outside⟩ := exists_performs ran
    obtain ⟨_, inside⟩ := exists_performs called
    obtain ⟨_, again, ends⟩ := outside.exists_sameBelow blind entered (.invocation _)
    cases again.outcome_eq inside
    exact oneDeeper_of_sameBelow ends

/-- A host function that clears the trace, redefines a word and goes on if that failed. -/
def wipeAndDefine (name : String) (tokens : List String) : HostProgram :=
  .operate (fun m => m.clearTrace.done) fun _ =>
    .operate (fun m => m.define name (.ofTokens tokens)) fun _ => .finish none

theorem depthBlind_wipeAndDefine (name : String) (tokens : List String) :
    (wipeAndDefine name tokens).DepthBlind := by
  apply HostProgram.Alike.operate
  · exact fun same => ⟨rfl, same.clearTrace⟩
  · intro _
    exact .operate (fun same => same.blind (blind_define name _)) fun _ => .finish none

end Machine

end WordMachine
