import WordMachine.Proofs.Machine.Journal

/-! # What hosts do to the dictionary

The dictionary of a machine changes in two ways. An operation may edit it: it defines or forgets
some names. And a name that is executed counts a use of its word. The programs of a host, which may
do all that they like to the rest of the machine, do no more to the dictionary if each of their
operations edits it at most.

A property that edits keep, and that follows the uses as they are counted, is therefore kept by all
that a host does, and the journal says which uses there were.
-/

namespace WordMachine

namespace Dictionary

/-- The second dictionary is the first after one name was defined or forgotten. -/
inductive Edit (d next : Dictionary) : Prop where
  | define {now : Instant} {name : String} {definition : Definition}
      (defined : d.define now name definition = .ok next)
  | forget {name : String} {word : Word} (forgotten : d.forget name = .ok (word, next))

/-- The second dictionary is the first after some names were defined or forgotten. -/
abbrev Edited : Dictionary → Dictionary → Prop :=
  Relation.ReflTransGen Edit

end Dictionary

namespace Machine

/-! ## Operations that edit the dictionary -/

/-- An operation edits the dictionary at most, whatever else it does to the machine. -/
def EditsDictionary (operation : Machine → Outcome) : Prop :=
  ∀ m : Machine, m.dictionary.Edited (operation m).machine.dictionary

section Edited

variable {before : Dictionary} {m : Machine} (edited : before.Edited m.dictionary)

include edited

theorem edited_define (name : String) (definition : Definition) :
    before.Edited (m.define name definition).machine.dictionary :=
  define_dictionary edited fun defined => edited.tail (.define defined)

theorem edited_forget (name : String) : before.Edited (m.forget name).machine.dictionary :=
  forget_dictionary edited (fun earlier forgotten => earlier.tail (.forget forgotten)) name

end Edited

/-- The operations of a host that run nothing edit the dictionary at most. -/
theorem directInvariant_edited (before : Dictionary) :
    DirectInvariant fun m => before.Edited m.dictionary where
  push edited v := by rw [push, onStack_dictionary]; exact edited
  popped edited := by rw [popped, onStack_dictionary]; exact edited
  cleared edited := edited
  defined edited name definition := edited_define edited name definition
  forget edited name := edited_forget edited name
  traced edited _ := edited
  untraced edited := edited

/-- The machine's own native words edit the dictionary at most. -/
theorem editsDictionary_own (native : Native) :
    (Natives.ownPrograms native).Every EditsDictionary := by
  apply HostProgram.every_ofAction
  · intro computation m
    rw [onStack_dictionary]
  · intro word m
    rw [consoleWord_dictionary]
  · exact fun name definition m => edited_define .refl name definition
  · exact fun name m => edited_forget .refl name

/-! ## Properties that follow the uses -/

/-- A property of the names that were executed and the dictionary which edits keep and which follows
the uses that are counted. -/
structure UsesInvariant (P : List String → Dictionary → Prop) : Prop where
  define : ∀ {uses} {d next : Dictionary} {now name definition}, P uses d →
    d.define now name definition = .ok next → P uses next
  forget : ∀ {uses} {d next : Dictionary} {name word}, P uses d →
    d.forget name = .ok (word, next) → P uses next
  counted : ∀ {uses} {d : Dictionary}, P uses d → ∀ name, P (uses ++ [name]) (d.counted name)

namespace UsesInvariant

variable {P : List String → Dictionary → Prop} (invariant : UsesInvariant P)
  {programs : Native → HostProgram}

include invariant

theorem edited {uses : List String} {d next : Dictionary} (holds : P uses d)
    (edited : d.Edited next) : P uses next := by
  induction edited with
  | refl => exact holds
  | tail _ edit ih =>
      cases edit with
      | define defined => exact invariant.define ih defined
      | forget forgotten => exact invariant.forget ih forgotten

/-- An item that dispatches nothing keeps the property. -/
theorem edits {uses : List String} {m : Machine} {item : Source.Item} {loaded : Source.Loaded}
    (holds : P uses m.dictionary)
    (edits : ∀ interpreter : Interpreter, interpreter.perform m item = some loaded) :
    P uses loaded.machine.dictionary := by
  have performed := edits fun _ _ => none
  cases item with
  | comment =>
      cases performed
      exact holds
  | definition name effect body =>
      cases performed
      exact invariant.edited holds (edited_define .refl name.text _)
  | «forget» name =>
      cases performed
      exact invariant.edited holds (edited_forget .refl name.text)
  | dispatch token => cases performed

variable (edits : ∀ native, (programs native).Every EditsDictionary)

include edits

/-- A task keeps the property and adds the names of its journal, by induction on the rules. -/
theorem performs {bound : Nat} {m : Machine} {task : Task} {o : Outcome} {journal : List Event}
    (performs : Performs programs bound m task o journal) (allowed : task.Every EditsDictionary)
    {uses : List String} (holds : P uses m.dictionary) :
    P (uses ++ Event.names journal) o.machine.dictionary := by
  induction performs generalizing uses with
  | done m | finish m =>
      rw [Event.names_nil, List.append_nil]
      exact holds
  | next _ _ ih_first ih =>
      rw [Event.names_append, ← List.append_assoc]
      exact ih trivial (ih_first trivial holds)
  | stop _ ih => exact ih trivial holds
  | @numeral _ m token x _ =>
      have same : ((m.record token).push (.number x)).machine.dictionary = m.dictionary := by
        rw [push, onStack_dictionary, record_dictionary]
      rw [same]
      exact (List.append_nil uses).symm ▸ holds
  | @word _ m token _ _ _ _ ih =>
      rw [← record_dictionary m token] at holds
      exact ih trivial holds
  | @missing _ m name unknown =>
      have counted := invariant.counted holds name
      rw [Dictionary.counted_of_unknown unknown] at counted
      exact counted
  | @found _ m name _ _ journal _ _ ih =>
      have split : uses ++ Event.names (.executed name :: journal) =
          (uses ++ [name]) ++ Event.names journal := by
        rw [List.append_assoc]
        rfl
      rw [split]
      exact ih trivial (invariant.counted holds name)
  | compiled _ ih =>
      rw [Event.names_map_raised]
      exact ih trivial holds
  | native _ ih => exact ih (edits _) holds
  | look _ ih => exact ih (allowed _) holds
  | @operate _ m _ _ _ _ _ ih =>
      exact ih (allowed.2 _) (invariant.edited holds (allowed.1 m))
  | ask _ _ ih_asked ih =>
      rw [Event.names_append, ← List.append_assoc]
      exact ih (allowed _) (ih_asked trivial holds)

theorem performsItems {bound : Nat} {m : Machine} {items : List Source.Item}
    {loaded : Source.Loaded} {journal : List Event}
    (performs : PerformsItems programs bound m items loaded journal) {uses : List String}
    (holds : P uses m.dictionary) :
    P (uses ++ Event.names journal) loaded.machine.dictionary := by
  induction performs generalizing uses with
  | done m =>
      rw [Event.names_nil, List.append_nil]
      exact holds
  | dispatch dispatched _ ih =>
      rw [Event.names_append, ← List.append_assoc]
      exact ih (invariant.performs edits dispatched trivial holds)
  | dispatchFails dispatched => exact invariant.performs edits dispatched trivial holds
  | edit edited _ ih => exact ih (invariant.edits holds edited)
  | editFails edited =>
      rw [Event.names_nil, List.append_nil]
      exact invariant.edits holds edited

end UsesInvariant

/-! ## Operations of a host with their journals -/

/-- An operation of a host with the journal of what is dispatched and executed. -/
inductive PerformsOperation (programs : Native → HostProgram) (m : Machine) :
    HostOperation → Machine → List Event → Prop where
  | run {bound : Nat} {source : String} {o : Outcome} {journal : List Event}
      (ran : Performs programs bound m (.invocation (.run (Text.words source))) o journal) :
      PerformsOperation programs m (.run bound source) o.machine journal
  | load {bound : Nat} {source : String} {loaded : Source.Loaded} {journal : List Event}
      (loads : Loads programs bound m source loaded journal) :
      PerformsOperation programs m (.load bound source) loaded.machine journal
  | execute {bound : Nat} {name : String} {o : Outcome} {journal : List Event}
      (executed : Performs programs bound m (.invocation (.execute name)) o journal) :
      PerformsOperation programs m (.execute bound name) o.machine journal
  | executeWord {bound : Nat} {word : Word} {o : Outcome} {journal : List Event}
      (executed : Performs programs bound m (.invocation (.executeBody word.body)) o journal) :
      PerformsOperation programs m (.executeWord bound word) o.machine journal
  | dispatch {bound : Nat} {token : String} {o : Outcome} {journal : List Event}
      (dispatched : Performs programs bound m (.invocation (.dispatch token)) o journal) :
      PerformsOperation programs m (.dispatch bound token) o.machine journal
  | direct {operation : HostOperation} {next : Machine} (direct : operation.Direct)
      (performed : m.perform operation = some next) :
      PerformsOperation programs m operation next []

/-- Every operation that ends has a journal. -/
theorem exists_performsOperation {programs : Native → HostProgram} {m next : Machine}
    {operation : HostOperation}
    (performed : (Natives.ofPrograms programs).perform m operation = some next) :
    ∃ journal, PerformsOperation programs m operation next journal := by
  cases operation with
  | run bound source =>
      obtain ⟨o, ended, rfl⟩ := Option.map_eq_some_iff.mp performed
      obtain ⟨journal, ran⟩ := exists_performs ended
      exact ⟨journal, .run ran⟩
  | load bound source =>
      obtain ⟨loaded, ended, rfl⟩ := Option.map_eq_some_iff.mp performed
      obtain ⟨journal, loads⟩ := exists_loads ended
      exact ⟨journal, .load loads⟩
  | execute bound name =>
      obtain ⟨o, ended, rfl⟩ := Option.map_eq_some_iff.mp performed
      obtain ⟨journal, executed⟩ := exists_performs ended
      exact ⟨journal, .execute executed⟩
  | executeWord bound word =>
      obtain ⟨o, ended, rfl⟩ := Option.map_eq_some_iff.mp performed
      obtain ⟨journal, executed⟩ := exists_performs ended
      exact ⟨journal, .executeWord executed⟩
  | dispatch bound token =>
      obtain ⟨o, ended, rfl⟩ := Option.map_eq_some_iff.mp performed
      obtain ⟨journal, dispatched⟩ := exists_performs ended
      exact ⟨journal, .dispatch dispatched⟩
  | push | pop | define | «forget» | install | restore | setTracing | clearTrace =>
      exact ⟨[], .direct trivial performed⟩

/-- An operation keeps a property that follows the uses and adds the names of its journal. -/
theorem UsesInvariant.performsOperation {P : List String → Dictionary → Prop}
    (invariant : UsesInvariant P) {programs : Native → HostProgram}
    (edits : ∀ native, (programs native).Every EditsDictionary) {m next : Machine}
    {operation : HostOperation} {journal : List Event}
    (performs : PerformsOperation programs m operation next journal) {uses : List String}
    (holds : P uses m.dictionary) : P (uses ++ Event.names journal) next.dictionary := by
  cases performs with
  | run performs | execute performs | executeWord performs | dispatch performs =>
      exact invariant.performs edits performs trivial holds
  | load loads =>
      obtain ⟨_, performs⟩ := loads
      exact invariant.performsItems edits performs holds
  | direct direct performed =>
      rw [Event.names_nil, List.append_nil]
      apply invariant.edited holds
      exact (directInvariant_edited m.dictionary).direct .refl direct performed

/-! ## What a host does -/

/-- One thing that a host does to a machine: an operation, which may fail, with any programs behind
the native words that edit the dictionary at most; another clock or console; or a copy, which takes
the place of the machine. -/
inductive HostStep : Machine → Machine → Prop where
  | operation {programs : Native → HostProgram} {m next : Machine}
      (edits : ∀ native, (programs native).Every EditsDictionary) (operation : HostOperation)
      (performed : (Natives.ofPrograms programs).perform m operation = some next) : HostStep m next
  | environment (m : Machine) (clock : Instant) (console : Console) :
      HostStep m { m with clock, console }
  | clone {m copy : Machine} (cloned : m.clone = .ok copy) : HostStep m copy

/-- What a host does in a row, with the names that are executed on the way. -/
inductive StepsUsing (m : Machine) : List String → Machine → Prop where
  | refl : StepsUsing m [] m
  | operation {uses : List String} {programs : Native → HostProgram} {last next : Machine}
      {operation : HostOperation} {journal : List Event} (steps : StepsUsing m uses last)
      (edits : ∀ native, (programs native).Every EditsDictionary)
      (performs : PerformsOperation programs last operation next journal) :
      StepsUsing m (uses ++ Event.names journal) next
  | environment {uses : List String} {last : Machine} (steps : StepsUsing m uses last)
      (clock : Instant) (console : Console) : StepsUsing m uses { last with clock, console }
  | clone {uses : List String} {last copy : Machine} (steps : StepsUsing m uses last)
      (cloned : last.clone = .ok copy) : StepsUsing m uses copy

/-- All that a host does in a row has a list of the names that are executed. -/
theorem exists_stepsUsing {m later : Machine} (steps : Relation.ReflTransGen HostStep m later) :
    ∃ uses, StepsUsing m uses later := by
  induction steps with
  | refl => exact ⟨[], .refl⟩
  | tail _ step ih =>
      obtain ⟨uses, earlier⟩ := ih
      cases step with
      | operation edits operation performed =>
          obtain ⟨journal, performs⟩ := exists_performsOperation performed
          exact ⟨_, earlier.operation edits performs⟩
      | environment clock console => exact ⟨uses, earlier.environment _ _⟩
      | clone cloned => exact ⟨uses, earlier.clone cloned⟩

/-- A property that follows the uses is kept by all that a host does in a row, by induction on the
steps. A copy has the same dictionary. -/
theorem UsesInvariant.of_steps {P : List String → Dictionary → Prop} (invariant : UsesInvariant P)
    (named : ∀ {uses d}, P uses d → d.WellNamed) {m later : Machine} {uses : List String}
    (steps : StepsUsing m uses later) (holds : P [] m.dictionary) : P uses later.dictionary := by
  induction steps with
  | refl => exact holds
  | operation _ edits performs ih => exact invariant.performsOperation edits performs ih
  | environment _ _ _ ih => exact ih
  | clone _ cloned ih =>
      rw [clone_dictionary_eq (named ih) cloned]
      exact ih

end Machine

end WordMachine
