import Mathlib.Data.List.Nodup
import WordMachine.Proofs.Dictionary
import WordMachine.Proofs.Machine.HostOperations

/-! # The machines that a host can reach

A host starts from a machine without words and performs operations on it, successful or not.
Behind native words it may put functions of its own that act by moves, and others from one
operation to the next. An invariant that the primitive operations of a host keep holds of every
machine that is reached; the first one shown here is that names are distinct and not empty.
-/

namespace WordMachine

namespace Machine

/-- The machines that a host reaches from the machine without words of a configuration, whatever
functions that act by moves it puts behind the native words. The clock and the console are the
host's own. -/
inductive Reachable (config : Config) : Machine → Prop where
  | initial (clock : Instant) : Reachable config (.ofConfig config clock)
  | environment {m : Machine} (clock : Instant) (console : Console) :
      Reachable config m → Reachable config { m with clock, console }
  | hosted {m next : Machine} {natives : Natives}
      (hosts : natives.OwnOr NativeFunction.ActsByMoves) (operation : HostOperation) :
      Reachable config m → natives.perform m operation = some next → Reachable config next
  | clone {m copy : Machine} : Reachable config m → m.clone = .ok copy → Reachable config copy

/-- A machine whose native words are its own performs an operation. -/
theorem Reachable.step {config : Config} {m next : Machine} (operation : HostOperation)
    (reachable : Reachable config m) (performed : m.perform operation = some next) :
    Reachable config next := by
  rw [← Natives.perform_own] at performed
  exact .hosted (fun _ => .inl rfl) operation reachable performed

/-- A property of machines that the operations keep that run nothing. -/
structure DirectInvariant (P : Machine → Prop) : Prop where
  push : ∀ {m}, P m → ∀ v, P (m.push v).machine
  popped : ∀ {m}, P m → P m.popped
  cleared : ∀ {m}, P m → P { m with data := m.data.clear }
  defined : ∀ {m}, P m → ∀ name definition, P (m.define name definition).machine
  forget : ∀ {m}, P m → ∀ name, P (m.forget name).machine
  traced : ∀ {m}, P m → ∀ on, P (m.setTracing on)
  untraced : ∀ {m}, P m → P m.clearTrace

namespace DirectInvariant

variable {P : Machine → Prop} (invariant : DirectInvariant P)

include invariant

/-- Several definitions keep an invariant, also when one of them fails. -/
theorem defineAll {m : Machine} (holds : P m) (definitions : List (String × Definition)) :
    P (m.defineAll definitions).machine := by
  induction definitions generalizing m with
  | nil => exact holds
  | cons p rest ih =>
      obtain ⟨name, definition⟩ := p
      have kept := invariant.defined holds name definition
      unfold Machine.define at kept
      unfold Machine.defineAll
      cases defined : m.dictionary.define m.clock name definition with
      | ok dictionary =>
          rw [defined] at kept
          exact ih kept
      | error error => exact holds

/-- Several pushes keep an invariant, also when one of them fails. -/
theorem pushAll {m : Machine} (holds : P m) (values : List Value) :
    P (m.onStack (StackM.pushAll values)).machine := by
  induction values generalizing m with
  | nil => exact holds
  | cons v rest ih =>
      have kept := invariant.push holds v
      cases pushed : StackM.push v m.data with
      | ok _ stack =>
          simp only [Machine.push, onStack, pushed, done] at kept
          have later := ih kept
          simpa only [onStack, StackM.pushAll, bind, EStateM.bind, pushed] using later
      | error error stack =>
          simp only [Machine.push, onStack, pushed, failed] at kept
          simpa only [onStack, StackM.pushAll, bind, EStateM.bind, pushed, failed] using kept

/-- A restore keeps an invariant: it clears the stack, pushes and defines. -/
theorem restore {m : Machine} (holds : P m) (s : Snapshot) : P (m.restore s).machine := by
  unfold Machine.restore
  split
  · exact holds
  · split
    · exact holds
    · split
      · exact holds
      · unfold replaceState
        have pushed := invariant.pushAll (invariant.cleared holds) s.stack
        dsimp only
        split
        · exact invariant.defineAll pushed _
        · exact pushed

/-- An operation that runs nothing keeps an invariant. -/
theorem direct {m next : Machine} (holds : P m) {operation : HostOperation}
    (direct : operation.Direct) (performed : m.perform operation = some next) : P next := by
  cases operation with
  | run | load | execute | executeWord | dispatch => exact direct.elim
  | push v =>
      cases performed
      exact invariant.push holds v
  | pop =>
      cases performed
      exact invariant.popped holds
  | define name definition =>
      cases performed
      exact invariant.defined holds name definition
  | «forget» name =>
      cases performed
      exact invariant.forget holds name
  | install identity parts =>
      cases performed
      exact invariant.defineAll holds _
  | restore s =>
      cases performed
      exact invariant.restore holds s
  | setTracing on =>
      cases performed
      exact invariant.traced holds on
  | clearTrace =>
      cases performed
      exact invariant.untraced holds

end DirectInvariant

/-- A property of machines that every primitive operation of a host keeps, whatever native
actions its words have. -/
structure HostInvariant (P : Machine → Prop) : Prop extends Invariant (fun _ => True) P where
  popped : ∀ {m}, P m → P m.popped
  cleared : ∀ {m}, P m → P { m with data := m.data.clear }
  defined : ∀ {m}, P m → ∀ name definition, P (m.define name definition).machine
  traced : ∀ {m}, P m → ∀ on, P (m.setTracing on)
  untraced : ∀ {m}, P m → P m.clearTrace
  cloned : ∀ {m copy}, P m → m.clone = .ok copy → P copy
  environment : ∀ {m}, P m → ∀ clock console, P { m with clock, console }

theorem admitted_true (body : Body) : body.Admitted fun _ => True := by
  cases body <;> exact trivial

namespace HostInvariant

variable {P : Machine → Prop} (invariant : HostInvariant P)

include invariant

theorem operations : DirectInvariant P where
  push holds v := invariant.push holds v trivial
  popped holds := invariant.popped holds
  cleared holds := invariant.cleared holds
  defined holds name definition := invariant.defined holds name definition
  forget holds name := invariant.forget holds name
  traced holds on := invariant.traced holds on
  untraced holds := invariant.untraced holds

/-- An invariant is kept by all that a host does. -/
theorem keptByHosts : KeptByHosts (fun _ _ => True) fun _ => P where
  core holds word := invariant.core holds word
  console holds word := invariant.console holds word
  push holds v := invariant.push holds v trivial
  define holds name effect tokens := invariant.define holds name effect tokens
  forget holds name := invariant.forget holds name
  record holds token := invariant.record holds token
  enter holds := invariant.enter holds
  leave holds := invariant.leave holds
  resolved holds _ _ _ found := (invariant.resolved holds _ _ _ found).2
  operate holds direct _ performed := invariant.operations.direct holds direct performed

/-- An operation keeps an invariant, whatever functions that act by moves are behind the native
words. -/
theorem perform {natives : Natives} (hosts : natives.OwnOr NativeFunction.ActsByMoves)
    {m next : Machine} (holds : P m) {operation : HostOperation}
    (performed : natives.perform m operation = some next) : P next :=
  invariant.keptByHosts.perform hosts 0 holds (fun _ => trivial) performed

/-- An invariant that holds at the start holds of every machine that is reached. -/
theorem of_reachable {config : Config} (initial : ∀ clock, P (.ofConfig config clock))
    {m : Machine} (reachable : Reachable config m) : P m := by
  induction reachable with
  | initial clock => exact initial clock
  | environment clock console _ ih => exact invariant.environment ih clock console
  | hosted hosts operation _ performed ih => exact invariant.perform hosts ih performed
  | clone _ cloned ih => exact invariant.cloned ih cloned

end HostInvariant

/-! ## Names -/

@[simp]
theorem onStack_dictionary (m : Machine) (computation : StackM Unit) :
    (m.onStack computation).machine.dictionary = m.dictionary := by
  unfold onStack
  split <;> rfl

@[simp]
theorem write_dictionary (m : Machine) (text : String) :
    (m.write text).machine.dictionary = m.dictionary := by
  unfold write
  split <;> rfl

@[simp]
theorem consoleWord_dictionary (m : Machine) (word : ConsoleWord) :
    (word.run m).machine.dictionary = m.dictionary := by
  unfold ConsoleWord.run
  split
  · rw [write_dictionary]
  · rfl

@[simp]
theorem record_dictionary (m : Machine) (token : String) :
    (m.record token).dictionary = m.dictionary := by
  unfold record
  split <;> rfl

@[simp]
theorem record_data (m : Machine) (token : String) :
    (m.record token).data = m.data := by
  unfold record
  split <;> rfl

/-- A definition keeps what it keeps of the dictionary. -/
theorem define_dictionary {P : Dictionary → Prop} {m : Machine} (holds : P m.dictionary)
    {name : String} {definition : Definition}
    (kept : ∀ {next}, m.dictionary.define m.clock name definition = .ok next → P next) :
    P (m.define name definition).machine.dictionary := by
  unfold define
  split
  · next defined => exact kept defined
  · exact holds

/-- Forgetting keeps what every forgetting of the dictionary keeps. -/
theorem forget_dictionary {P : Dictionary → Prop} {m : Machine} (holds : P m.dictionary)
    (kept : ∀ {d next : Dictionary} {name word}, P d → d.forget name = .ok (word, next) → P next)
    (name : String) : P (m.forget name).machine.dictionary := by
  unfold forget
  split
  · next forgotten => exact kept holds forgotten
  · exact holds

/-- What a copy is made of. -/
theorem clone_ok {m copy : Machine} (cloned : m.clone = .ok copy) :
    ∃ dictionary data returns, m.dictionary.duplicate m.clock = .ok dictionary ∧
      StackM.pushAll m.data.toList (.empty "data" m.config.stackDepth) = .ok () data ∧
      StackM.pushAll m.returns.toList (.empty "return" m.config.returnStackDepth) =
        .ok () returns ∧
      copy = { ofConfig m.config m.clock with
        dictionary, data, returns, console := m.console } := by
  unfold clone at cloned
  cases duplicated : m.dictionary.duplicate m.clock with
  | error error => simp [duplicated, bind, Except.bind] at cloned
  | ok dictionary =>
      simp only [duplicated, bind, Except.bind] at cloned
      split at cloned
      · next _ data _ returns data_pushed returns_pushed =>
          cases cloned
          exact ⟨dictionary, data, returns, rfl, data_pushed, returns_pushed, rfl⟩
      · cases cloned
      · cases cloned

/-- A copy of a machine with distinct names has the same dictionary. -/
theorem clone_dictionary_eq {m copy : Machine} (named : m.dictionary.WellNamed)
    (cloned : m.clone = .ok copy) : copy.dictionary = m.dictionary := by
  obtain ⟨dictionary, _, _, duplicated, _, _, rfl⟩ := clone_ok cloned
  rw [named.duplicate_eq] at duplicated
  exact (Except.ok.inj duplicated).symm

/-- What definitions by tokens, forgetting and counting a use keep of a dictionary, runs and
loads keep. -/
theorem invariant_of_dictionary {P : Dictionary → Prop}
    (define : ∀ {d next : Dictionary} {now name effect tokens}, P d →
      d.define now name { effect, body := .compiled tokens } = .ok next → P next)
    (forget : ∀ {d next : Dictionary} {name word}, P d → d.forget name = .ok (word, next) → P next)
    (resolve : ∀ {d next : Dictionary} {name body}, P d → d.resolve? name = some (body, next) →
      P next) :
    Invariant (fun _ => True) fun m => P m.dictionary where
  number holds x := by rw [push, onStack_dictionary]; exact holds
  push holds v _ := by rw [push, onStack_dictionary]; exact holds
  core holds word := by rw [onStack_dictionary]; exact holds
  console holds word := by rw [consoleWord_dictionary]; exact holds
  define holds name effect tokens := define_dictionary holds (define holds)
  forget holds name := forget_dictionary holds forget name
  record holds token := by rw [record_dictionary]; exact holds
  enter holds := holds
  leave holds := holds
  resolved holds name body dictionary found := ⟨admitted_true body, resolve holds found⟩

/-- A property of dictionaries with distinct names that defining, forgetting and counting a
use keep. A copy is the same dictionary. -/
structure DictionaryInvariant (P : Dictionary → Prop) : Prop where
  named : ∀ {d : Dictionary}, P d → d.WellNamed
  define : ∀ {d next : Dictionary} {now name definition}, P d →
    d.define now name definition = .ok next → P next
  forget : ∀ {d next : Dictionary} {name word}, P d → d.forget name = .ok (word, next) → P next
  resolve : ∀ {d next : Dictionary} {name body}, P d → d.resolve? name = some (body, next) → P next

/-- What the dictionary operations keep holds of the dictionary of every machine that is
reached. -/
theorem DictionaryInvariant.hostInvariant {P : Dictionary → Prop}
    (invariant : DictionaryInvariant P) : HostInvariant fun m => P m.dictionary where
  toInvariant := invariant_of_dictionary invariant.define invariant.forget invariant.resolve
  popped holds := by rw [popped, onStack_dictionary]; exact holds
  cleared holds := holds
  defined holds name definition := define_dictionary holds (invariant.define holds)
  traced holds on := holds
  untraced holds := holds
  cloned holds cloned := by
    rw [clone_dictionary_eq (invariant.named holds) cloned]
    exact holds
  environment holds clock console := holds

theorem dictionaryInvariant_wellNamed : DictionaryInvariant Dictionary.WellNamed where
  named named := named
  define named defined := named.define defined
  forget named forgotten := named.forget forgotten
  resolve named resolved := named.resolve resolved

/-- The names of a machine that is reached are distinct and not empty. -/
theorem Reachable.wellNamed {config : Config} {m : Machine} (reachable : Reachable config m) :
    m.dictionary.WellNamed :=
  dictionaryInvariant_wellNamed.hostInvariant.of_reachable
    (fun _ => ⟨List.nodup_nil, List.not_mem_nil⟩) reachable

end Machine

end WordMachine
