import WordMachine.Proofs.Machine.HostPrograms
import WordMachine.Proofs.Machine.Unfolding

/-! # The journal of a run

A journal lists the tokens that are dispatched and the names that are executed, in the order in
which this happens: a token stands before the tokens of the body that it runs, and the token that
fails is the last one. `Performs` gives by rules how a machine ends what is asked of it together
with the journal, for any programs behind the native words, and these rules agree with the
interpreter (`Machine.interpret_eq_some_iff`). The journal is written beside the machine: the rules
do not look at the trace, and how deep calls are is read off their own nesting.
-/

namespace WordMachine

namespace TraceEntry

/-- The entry with more compiled bodies in progress. -/
def raised (levels : Nat) (entry : TraceEntry) : TraceEntry :=
  { entry with depth := entry.depth + levels }

@[simp]
theorem raised_zero (entry : TraceEntry) : entry.raised 0 = entry := rfl

/-- Entries are raised by all levels together. -/
@[simp]
theorem raised_raised (first second : Nat) (entry : TraceEntry) :
    (entry.raised first).raised second = entry.raised (first + second) := by
  simp only [raised, Nat.add_assoc]

end TraceEntry

/-- What a journal lists: a token that is dispatched, as an entry of a trace shows it, or a name
that is executed, whether or not there is a word of that name. -/
inductive Event where
  | dispatched (entry : TraceEntry)
  | executed (name : String)

namespace Event

/-- The event with more compiled bodies in progress. -/
def raised (levels : Nat) : Event → Event
  | .dispatched entry => .dispatched (entry.raised levels)
  | .executed name => .executed name

/-- The entry of a token that is dispatched. -/
def entry? : Event → Option TraceEntry
  | .dispatched entry => some entry
  | .executed _ => none

/-- The name that is executed. -/
def name? : Event → Option String
  | .dispatched _ => none
  | .executed name => some name

/-- The tokens that are dispatched in a journal, as entries of a trace. -/
def entries (journal : List Event) : List TraceEntry :=
  journal.filterMap entry?

/-- The names that are executed in a journal. -/
def names (journal : List Event) : List String :=
  journal.filterMap name?

@[simp]
theorem entries_nil : entries [] = [] := rfl

@[simp]
theorem names_nil : names [] = [] := rfl

/-- Entries of one part of a journal come before those of the next. -/
@[simp]
theorem entries_append (first later : List Event) :
    entries (first ++ later) = entries first ++ entries later :=
  List.filterMap_append

/-- So do the names. -/
@[simp]
theorem names_append (first later : List Event) :
    names (first ++ later) = names first ++ names later :=
  List.filterMap_append

/-- Raised events have raised entries. -/
@[simp]
theorem entries_map_raised (levels : Nat) (journal : List Event) :
    entries (journal.map (raised levels)) = (entries journal).map (TraceEntry.raised levels) := by
  induction journal with
  | nil => rfl
  | cons event rest ih =>
      cases event with
      | dispatched entry => exact congrArg (entry.raised levels :: ·) ih
      | executed name => exact ih

/-- Raising events keeps their names. -/
@[simp]
theorem names_map_raised (levels : Nat) (journal : List Event) :
    names (journal.map (raised levels)) = names journal := by
  induction journal with
  | nil => rfl
  | cons event rest ih =>
      cases event with
      | dispatched entry => exact ih
      | executed name => exact congrArg (name :: ·) ih

end Event

namespace Machine

/-- What there is to do: something that is asked of the machine, or the rest of a program. -/
inductive Task where
  | invocation (invocation : Invocation)
  | program (program : HostProgram)

/-- Every operation of the program that is under way has a property. -/
def Task.Every (property : (Machine → Outcome) → Prop) : Task → Prop
  | .invocation _ => True
  | .program rest => rest.Every property

/-- Doing what there is to do, by rules, with the journal of what is dispatched and executed. An
entry counts the compiled bodies that were entered since the start of the task. Below `bound + 1`
levels of calls there are `bound`. -/
inductive Performs (programs : Native → HostProgram) :
    Nat → Machine → Task → Outcome → List Event → Prop where
  | done {bound : Nat} (m : Machine) : Performs programs bound m (.invocation (.run [])) m.done []
  | next {bound : Nat} {m next : Machine} {token : String} {rest : List String} {o : Outcome}
      {first later : List Event}
      (dispatched : Performs programs bound m (.invocation (.dispatch token)) next.done first)
      (continues : Performs programs bound next (.invocation (.run rest)) o later) :
      Performs programs bound m (.invocation (.run (token :: rest))) o (first ++ later)
  | stop {bound : Nat} {m last : Machine} {token : String} {rest : List String} {error : Error}
      {journal : List Event}
      (dispatched :
        Performs programs bound m (.invocation (.dispatch token)) (last.failed error) journal) :
      Performs programs bound m (.invocation (.run (token :: rest))) (last.failed error) journal
  | numeral {bound : Nat} {m : Machine} {token : String} {x : Float}
      (meaning : Token.classify token = .number x) :
      Performs programs bound m (.invocation (.dispatch token))
        ((m.record token).push (.number x)) [.dispatched ⟨0, token, m.data.depth⟩]
  | word {bound : Nat} {m : Machine} {token : String} {o : Outcome} {journal : List Event}
      (meaning : Token.classify token = .word token)
      (executed :
        Performs programs bound (m.record token) (.invocation (.execute token)) o journal) :
      Performs programs bound m (.invocation (.dispatch token)) o
        (.dispatched ⟨0, token, m.data.depth⟩ :: journal)
  | missing {bound : Nat} {m : Machine} {name : String} (unknown : m.dictionary.body? name = none) :
      Performs programs bound m (.invocation (.execute name)) (m.failed (.undefinedWord name))
        [.executed name]
  | found {bound : Nat} {m : Machine} {name : String} {body : Body} {o : Outcome}
      {journal : List Event} (known : m.dictionary.body? name = some body)
      (executed : Performs programs bound { m with dictionary := m.dictionary.counted name }
        (.invocation (.executeBody body)) o journal) :
      Performs programs bound m (.invocation (.execute name)) o (.executed name :: journal)
  | compiled {bound : Nat} {m : Machine} {tokens : List String} {o : Outcome}
      {journal : List Event}
      (called : Performs programs bound m.enter (.invocation (.run tokens)) o journal) :
      Performs programs (bound + 1) m (.invocation (.executeBody (.compiled tokens)))
        { o with machine := o.machine.leave } (journal.map (.raised 1))
  | native {bound : Nat} {m : Machine} {native : Native} {o : Outcome} {journal : List Event}
      (acted : Performs programs bound m (.program (programs native)) o journal) :
      Performs programs bound m (.invocation (.executeBody (.native native))) o journal
  | finish {bound : Nat} (m : Machine) (error : Option Error) :
      Performs programs bound m (.program (.finish error)) ⟨m, error⟩ []
  | look {bound : Nat} {m : Machine} {next : Machine → HostProgram} {o : Outcome}
      {journal : List Event}
      (continues : Performs programs bound m (.program (next m)) o journal) :
      Performs programs bound m (.program (.look next)) o journal
  | operate {bound : Nat} {m : Machine} {operation : Machine → Outcome}
      {next : Option Error → HostProgram} {o : Outcome} {journal : List Event}
      (continues : Performs programs bound (operation m).machine
        (.program (next (operation m).error)) o journal) :
      Performs programs bound m (.program (.operate operation next)) o journal
  | ask {bound : Nat} {m : Machine} {invocation : Invocation} {next : Option Error → HostProgram}
      {reached o : Outcome} {first later : List Event}
      (asked : Performs programs bound m (.invocation invocation) reached first)
      (continues : Performs programs (bound + 1) reached.machine
        (.program (next reached.error)) o later) :
      Performs programs (bound + 1) m (.program (.ask invocation next)) o (first ++ later)

/-! ## The rules and the interpreter -/

namespace Natives

variable (natives : Natives) (bound : Nat) (m : Machine)

/-- A run dispatches its first token and goes on after it. -/
theorem interpret_run_cons (token : String) (rest : List String) :
    natives.interpret bound m (.run (token :: rest)) =
      (natives.interpret bound m (.dispatch token)).bind fun o =>
        o.andThen fun next => natives.interpret bound next (.run rest) := rfl

/-- A token is recorded; a number is pushed and a name is executed. -/
theorem interpret_dispatch (token : String) :
    natives.interpret bound m (.dispatch token) =
      match Token.classify token with
      | .number x => some ((m.record token).push (.number x))
      | .word name => natives.interpret bound (m.record token) (.execute name) := rfl

/-- A name that is known is counted before its body is executed. -/
theorem interpret_execute (name : String) :
    natives.interpret bound m (.execute name) =
      match m.dictionary.body? name with
      | none => some (m.failed (.undefinedWord name))
      | some body =>
        natives.interpret bound { m with dictionary := m.dictionary.counted name }
          (.executeBody body) := by
  change natives.executeWith _ m name = _
  unfold executeWith
  rw [Dictionary.resolve?_eq]
  cases m.dictionary.body? name <;> rfl

/-- A compiled body runs one level deeper. -/
theorem interpret_compiled (tokens : List String) :
    natives.interpret (bound + 1) m (.executeBody (.compiled tokens)) =
      (natives.interpret bound m.enter (.run tokens)).map fun o =>
        { o with machine := o.machine.leave } := rfl

/-- What is served within a bound is what native words and compiled bodies may call one level
above. -/
theorem interpret_eq_below : natives.interpret bound = natives.interpretBelow (bound + 1) := rfl

end Natives

variable {programs : Native → HostProgram}

/-- Does what there is to do; calls nest at most `bound` deep. -/
def performTask (programs : Native → HostProgram) (bound : Nat) (m : Machine) :
    Task → Option Outcome
  | .invocation invocation => (Natives.ofPrograms programs).interpret bound m invocation
  | .program program => program.run ((Natives.ofPrograms programs).interpretBelow bound) m

/-- The machine ends a task as the rules say. -/
theorem Performs.performTask {bound : Nat} {m : Machine} {task : Task} {o : Outcome}
    {journal : List Event} (performs : Performs programs bound m task o journal) :
    performTask programs bound m task = some o := by
  induction performs with
  | done m => rfl
  | next _ _ ih_first ih =>
      rw [Machine.performTask] at ih_first ih ⊢
      rw [Natives.interpret_run_cons, ih_first]
      exact ih
  | stop _ ih =>
      rw [Machine.performTask] at ih ⊢
      rw [Natives.interpret_run_cons, ih]
      rfl
  | numeral meaning => rw [Machine.performTask, Natives.interpret_dispatch, meaning]
  | word meaning _ ih =>
      rw [Machine.performTask, Natives.interpret_dispatch, meaning]
      exact ih
  | missing unknown => rw [Machine.performTask, Natives.interpret_execute, unknown]
  | found known _ ih =>
      rw [Machine.performTask, Natives.interpret_execute, known]
      exact ih
  | compiled _ ih =>
      rw [Machine.performTask] at ih ⊢
      rw [Natives.interpret_compiled, ih, Option.map_some]
  | native _ ih => exact ih
  | finish m error => rfl
  | look _ ih => exact ih
  | operate _ ih => exact ih
  | ask _ _ ih_asked ih =>
      rw [Machine.performTask, Natives.interpret_eq_below] at ih_asked
      rw [Machine.performTask, HostProgram.run_ask, ih_asked]
      exact ih

section Complete

variable {bound : Nat}
  (below : ∀ {m invocation o},
    (Natives.ofPrograms programs).interpretBelow bound m invocation = some o →
      ∃ lower journal, bound = lower + 1 ∧
        Performs programs lower m (.invocation invocation) o journal)

include below

/-- A host program that ends has a journal. -/
theorem exists_performs_program {m : Machine} {program : HostProgram} {o : Outcome}
    (ended : program.run ((Natives.ofPrograms programs).interpretBelow bound) m = some o) :
    ∃ journal, Performs programs bound m (.program program) o journal := by
  induction program generalizing m with
  | finish error =>
      cases ended
      exact ⟨_, .finish m error⟩
  | look next ih =>
      obtain ⟨journal, continues⟩ := ih _ ended
      exact ⟨journal, .look continues⟩
  | operate operation next ih =>
      obtain ⟨journal, continues⟩ := ih _ ended
      exact ⟨journal, .operate continues⟩
  | ask invocation next ih =>
      obtain ⟨reached, answered, after⟩ := Option.bind_eq_some_iff.mp ended
      obtain ⟨lower, first, rfl, asked⟩ := below answered
      obtain ⟨later, continues⟩ := ih _ after
      exact ⟨_, .ask asked continues⟩

/-- A body that ends has a journal. -/
theorem exists_performs_body {m : Machine} {body : Body} {o : Outcome}
    (ended : (Natives.ofPrograms programs).interpret bound m (.executeBody body) = some o) :
    ∃ journal, Performs programs bound m (.invocation (.executeBody body)) o journal := by
  cases body with
  | native native =>
      obtain ⟨journal, acted⟩ := exists_performs_program below ended
      exact ⟨journal, .native acted⟩
  | compiled tokens =>
      obtain ⟨inner, called, rfl⟩ := Option.map_eq_some_iff.mp ended
      obtain ⟨lower, journal, rfl, performs⟩ := below called
      exact ⟨_, .compiled performs⟩

/-- A name that was executed to its end has a journal. -/
theorem exists_performs_execute {m : Machine} {name : String} {o : Outcome}
    (ended : (Natives.ofPrograms programs).interpret bound m (.execute name) = some o) :
    ∃ journal, Performs programs bound m (.invocation (.execute name)) o journal := by
  rw [Natives.interpret_execute] at ended
  cases known : m.dictionary.body? name with
  | none =>
      rw [known] at ended
      cases ended
      exact ⟨_, .missing known⟩
  | some body =>
      rw [known] at ended
      obtain ⟨journal, executed⟩ := exists_performs_body below ended
      exact ⟨_, .found known executed⟩

/-- A token that was dispatched to its end has a journal. -/
theorem exists_performs_dispatch {m : Machine} {token : String} {o : Outcome}
    (ended : (Natives.ofPrograms programs).interpret bound m (.dispatch token) = some o) :
    ∃ journal, Performs programs bound m (.invocation (.dispatch token)) o journal := by
  rw [Natives.interpret_dispatch] at ended
  cases meaning : Token.classify token with
  | number x =>
      rw [meaning] at ended
      cases ended
      exact ⟨_, .numeral meaning⟩
  | word name =>
      rw [meaning] at ended
      cases Token.eq_of_classify meaning
      obtain ⟨journal, executed⟩ := exists_performs_execute below ended
      exact ⟨_, .word meaning executed⟩

/-- A run that ends has a journal. -/
theorem exists_performs_run {m : Machine} {tokens : List String} {o : Outcome}
    (ended : (Natives.ofPrograms programs).interpret bound m (.run tokens) = some o) :
    ∃ journal, Performs programs bound m (.invocation (.run tokens)) o journal := by
  induction tokens generalizing m with
  | nil =>
      cases ended
      exact ⟨_, .done m⟩
  | cons token rest ih =>
      rw [Natives.interpret_run_cons] at ended
      obtain ⟨⟨next, error⟩, dispatched, after⟩ := Option.bind_eq_some_iff.mp ended
      obtain ⟨first, performs⟩ := exists_performs_dispatch below dispatched
      cases error with
      | none =>
          obtain ⟨later, continues⟩ := ih after
          exact ⟨_, .next performs continues⟩
      | some error =>
          cases after
          exact ⟨first, .stop performs⟩

theorem exists_performs_of_below {m : Machine} {invocation : Invocation} {o : Outcome}
    (ended : (Natives.ofPrograms programs).interpret bound m invocation = some o) :
    ∃ journal, Performs programs bound m (.invocation invocation) o journal := by
  cases invocation with
  | run tokens => exact exists_performs_run below ended
  | dispatch token => exact exists_performs_dispatch below ended
  | execute name => exact exists_performs_execute below ended
  | executeBody body => exact exists_performs_body below ended

end Complete

/-- The rules give every end of what is asked, by induction on how deep calls may nest. -/
theorem exists_performs {bound : Nat} {m : Machine} {invocation : Invocation} {o : Outcome}
    (ended : (Natives.ofPrograms programs).interpret bound m invocation = some o) :
    ∃ journal, Performs programs bound m (.invocation invocation) o journal := by
  induction bound generalizing m invocation o with
  | zero =>
      apply exists_performs_of_below _ ended
      intro m invocation o answered
      cases answered
  | succ bound ih =>
      apply exists_performs_of_below _ ended
      intro m invocation o answered
      rw [← Natives.interpret_eq_below] at answered
      obtain ⟨journal, performs⟩ := ih answered
      exact ⟨bound, journal, rfl, performs⟩

/-- **The rules agree with the interpreter.** What is asked of a machine ends exactly as the rules
say, with the journal that they give. -/
theorem interpret_eq_some_iff {bound : Nat} {m : Machine} {invocation : Invocation} {o : Outcome} :
    (Natives.ofPrograms programs).interpret bound m invocation = some o ↔
      ∃ journal, Performs programs bound m (.invocation invocation) o journal := by
  constructor
  · exact exists_performs
  · intro ⟨journal, performs⟩
    exact performs.performTask

/-- What ends within a bound ends in the same way within every larger one. -/
theorem Performs.of_le {bound larger : Nat} {m : Machine} {task : Task} {o : Outcome}
    {journal : List Event} (performs : Performs programs bound m task o journal)
    (within : bound ≤ larger) : Performs programs larger m task o journal := by
  induction performs generalizing larger with
  | done m => exact .done m
  | next _ _ ih_first ih => exact .next (ih_first within) (ih within)
  | stop _ ih => exact .stop (ih within)
  | numeral meaning => exact .numeral meaning
  | word meaning _ ih => exact .word meaning (ih within)
  | missing unknown => exact .missing unknown
  | found known _ ih => exact .found known (ih within)
  | compiled _ ih =>
      obtain ⟨larger, rfl⟩ := Nat.exists_eq_add_of_le' (Nat.one_le_of_lt within)
      exact .compiled (ih (Nat.le_of_succ_le_succ within))
  | native _ ih => exact .native (ih within)
  | finish m error => exact .finish m error
  | look _ ih => exact .look (ih within)
  | operate _ ih => exact .operate (ih within)
  | ask _ _ ih_asked ih =>
      obtain ⟨larger, rfl⟩ := Nat.exists_eq_add_of_le' (Nat.one_le_of_lt within)
      exact .ask (ih_asked (Nat.le_of_succ_le_succ within)) (ih within)

/-- A task has one end, whatever the bounds within which it is reached. -/
theorem Performs.outcome_eq {bound bound' : Nat} {m : Machine} {task : Task} {o o' : Outcome}
    {journal journal' : List Event} (performs : Performs programs bound m task o journal)
    (performs' : Performs programs bound' m task o' journal') : o = o' := by
  have ended := (performs.of_le (Nat.le_max_left bound bound')).performTask
  have ended' := (performs'.of_le (Nat.le_max_right bound bound')).performTask
  exact Option.some.inj (ended.symm.trans ended')

/-! ## Loads -/

/-- Doing the items of a source, by rules, with the journal of what is dispatched and executed. An
item that dispatches nothing does the same whatever interpreter there is. -/
inductive PerformsItems (programs : Native → HostProgram) (bound : Nat) :
    Machine → List Source.Item → Source.Loaded → List Event → Prop where
  | done (m : Machine) : PerformsItems programs bound m [] ⟨m, none⟩ []
  | dispatch {m next : Machine} {token : SourceToken} {rest : List Source.Item}
      {loaded : Source.Loaded} {first later : List Event}
      (dispatched : Performs programs bound m (.invocation (.dispatch token.text)) next.done first)
      (continues : PerformsItems programs bound next rest loaded later) :
      PerformsItems programs bound m (.dispatch token :: rest) loaded (first ++ later)
  | dispatchFails {m last : Machine} {token : SourceToken} {rest : List Source.Item}
      {error : Error} {journal : List Event}
      (dispatched : Performs programs bound m (.invocation (.dispatch token.text))
        (last.failed error) journal) :
      PerformsItems programs bound m (.dispatch token :: rest)
        ⟨last, some (.ofError token error)⟩ journal
  | edit {m next : Machine} {item : Source.Item} {rest : List Source.Item}
      {loaded : Source.Loaded} {journal : List Event}
      (edits : ∀ interpreter : Interpreter, interpreter.perform m item = some ⟨next, none⟩)
      (continues : PerformsItems programs bound next rest loaded journal) :
      PerformsItems programs bound m (item :: rest) loaded journal
  | editFails {m last : Machine} {item : Source.Item} {rest : List Source.Item}
      {error : Source.LoadError}
      (edits : ∀ interpreter : Interpreter, interpreter.perform m item = some ⟨last, some error⟩) :
      PerformsItems programs bound m (item :: rest) ⟨last, some error⟩ []

/-- Loading a source, with the journal of what is dispatched and executed. The fault in which the
source may end changes nothing about the machine. -/
def Loads (programs : Native → HostProgram) (bound : Nat) (m : Machine) (source : String)
    (loaded : Source.Loaded) (journal : List Event) : Prop :=
  ∃ error, PerformsItems programs bound m (Source.program (Source.scan source)).items
    ⟨loaded.machine, error⟩ journal

/-- The rules give every end of the items of a source, by induction on the items. -/
theorem exists_performsItems {bound : Nat} {m : Machine} {items : List Source.Item}
    {loaded : Source.Loaded}
    (ended : ((Natives.ofPrograms programs).interpret bound).performAll m items = some loaded) :
    ∃ journal, PerformsItems programs bound m items loaded journal := by
  induction items generalizing m with
  | nil =>
      cases ended
      exact ⟨_, .done m⟩
  | cons item rest ih =>
      obtain ⟨⟨next, error⟩, performed, after⟩ := Option.bind_eq_some_iff.mp ended
      -- Only an item to dispatch depends on the interpreter.
      have edited : (∀ interpreter : Interpreter, interpreter.perform m item = some ⟨next, error⟩) →
          ∃ journal, PerformsItems programs bound m (item :: rest) loaded journal := by
        intro edits
        cases error with
        | none =>
            obtain ⟨journal, continues⟩ := ih after
            exact ⟨journal, .edit edits continues⟩
        | some error =>
            cases after
            exact ⟨_, .editFails edits⟩
      cases item with
      | comment | definition | «forget» => exact edited fun _ => performed
      | dispatch token =>
          obtain ⟨⟨reached, stopped⟩, dispatched, same⟩ := Option.map_eq_some_iff.mp performed
          cases same
          obtain ⟨first, performs⟩ := exists_performs dispatched
          cases stopped with
          | none =>
              obtain ⟨later, continues⟩ := ih after
              exact ⟨_, .dispatch performs continues⟩
          | some error =>
              cases after
              exact ⟨first, .dispatchFails performs⟩

/-- A load that ends has a journal. -/
theorem exists_loads {bound : Nat} {m : Machine} {source : String} {loaded : Source.Loaded}
    (ended : ((Natives.ofPrograms programs).interpret bound).load m source = some loaded) :
    ∃ journal, Loads programs bound m source loaded journal := by
  rw [Interpreter.load_eq] at ended
  obtain ⟨last, performed, rfl⟩ := Option.map_eq_some_iff.mp ended
  obtain ⟨journal, performs⟩ := exists_performsItems performed
  refine ⟨journal, last.error, ?_⟩
  split <;> exact performs

end Machine

end WordMachine
