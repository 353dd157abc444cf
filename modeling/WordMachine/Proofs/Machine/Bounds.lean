import WordMachine.Proofs.Machine.Reachable
import WordMachine.Proofs.Stack

/-! # The bounds of the machines that a host can reach

A machine keeps the bounds that it was made with: its configuration, the names and limits of
its stacks and the limit of its dictionary. No operation puts more on the data stack than it
holds, and none puts anything on the return stack.
-/

namespace WordMachine

/-- An empty stack is sound. -/
theorem sound_empty (name : String) (limit : Nat) :
    (Stack.empty name limit).Sound name limit fun _ => True :=
  ⟨rfl, rfl, Nat.zero_le _, fun _ member => nomatch member⟩

namespace Machine

/-- A machine with the bounds of a configuration: its data stack fits, and its return stack is
empty. -/
structure Fits (config : Config) (m : Machine) : Prop where
  configured : m.config = config
  data : m.data.Sound "data" config.stackDepth fun _ => True
  returns : m.returns = .empty "return" config.returnStackDepth
  limit : m.dictionary.historyLimit = config.historyLimit

/-- Every value that words make is a value. -/
theorem made_true : Value.Made fun _ => True :=
  ⟨fun _ => trivial, fun _ => trivial, trivial⟩

namespace Fits

variable {config : Config} {m : Machine}

/-- A computation on the data stack keeps the bounds if it keeps those of the stack. -/
theorem onStack (fits : m.Fits config) {computation : StackM Unit}
    (keeps : computation.Keeps (Stack.Sound "data" config.stackDepth fun _ => True)
      fun _ => True) : (m.onStack computation).machine.Fits config := by
  have after := keeps m.data fits.data
  unfold Machine.onStack
  cases reached : computation m.data with
  | ok _ stack =>
      rw [reached] at after
      exact { fits with data := after.1 }
  | error error stack =>
      rw [reached] at after
      exact { fits with data := after }

/-- A push keeps the bounds. -/
theorem push (fits : m.Fits config) (v : Value) : (m.push v).machine.Fits config :=
  fits.onStack (StackM.keeps_push trivial)

/-- Writing to the console keeps the bounds. -/
theorem write (fits : m.Fits config) (text : String) : (m.write text).machine.Fits config := by
  unfold Machine.write
  split
  · exact { fits with }
  · exact fits

/-- A console word keeps the bounds, whatever becomes of its text. -/
theorem consoleWord (fits : m.Fits config) (word : ConsoleWord) :
    (word.run m).machine.Fits config := by
  have after := word.keeps_text m.dictionary.names m.data fits.data
  unfold ConsoleWord.run
  cases reached : word.text m.dictionary.names m.data with
  | ok text stack =>
      rw [reached] at after
      have changed : Fits config { m with data := stack } := { fits with data := after.1 }
      exact changed.write text
  | error error stack =>
      rw [reached] at after
      exact { fits with data := after }

/-- A definition keeps the bounds, the limit of histories included. -/
theorem define (fits : m.Fits config) (name : String) (definition : Definition) :
    (m.define name definition).machine.Fits config := by
  unfold Machine.define
  split
  · next defined =>
      exact { fits with limit := (Dictionary.define_historyLimit defined).trans fits.limit }
  · exact fits

/-- Forgetting keeps the bounds. -/
theorem forget (fits : m.Fits config) (name : String) : (m.forget name).machine.Fits config := by
  unfold Machine.forget
  split
  · next forgotten =>
      exact { fits with limit := (Dictionary.forget_historyLimit forgotten).trans fits.limit }
  · exact fits

/-- An entry of the trace keeps the bounds. -/
theorem record (fits : m.Fits config) (token : String) : (m.record token).Fits config := by
  unfold Machine.record
  split
  · exact { fits with }
  · exact fits

end Fits

/-- A copy has the bounds of the machine that it is made from. -/
theorem Fits.clone {config : Config} {m copy : Machine} (fits : m.Fits config)
    (cloned : m.clone = .ok copy) : copy.Fits config := by
  obtain ⟨dictionary, data, returns, duplicated, data_pushed, returns_pushed, rfl⟩ :=
    clone_ok cloned
  have kept : (StackM.pushAll m.data.toList).Keeps
      (Stack.Sound "data" m.config.stackDepth fun _ => True) fun _ => True :=
    StackM.keeps_pushAll fun _ _ => trivial
  have sound := kept (.empty "data" m.config.stackDepth) (sound_empty _ _)
  rw [data_pushed, fits.configured] at sound
  have empty : m.returns.toList = [] := by
    rw [fits.returns]
    rfl
  rw [empty, fits.configured] at returns_pushed
  cases returns_pushed
  have limit := (Dictionary.defineAll_historyLimit duplicated).trans fits.limit
  exact ⟨fits.configured, sound.1, rfl, limit⟩

/-- Every operation of a host keeps the bounds of a machine. -/
theorem hostInvariant_fits (config : Config) : HostInvariant (Fits config) where
  number fits _ := fits.push _
  push fits v _ := fits.push v
  core fits word := fits.onStack (word.keeps_run made_true)
  console fits word := fits.consoleWord word
  define fits name _ _ := fits.define name _
  forget fits name := fits.forget name
  record fits token := fits.record token
  enter fits := { fits with }
  leave fits := { fits with }
  resolved fits _ body _ found :=
    ⟨admitted_true body,
      { fits with limit := (Dictionary.resolve_historyLimit found).trans fits.limit }⟩
  popped fits := fits.onStack (StackM.keeps_pop.bind fun _ _ => .pure trivial)
  cleared fits :=
    { fits with
      data := ⟨fits.data.called, fits.data.bound, Nat.zero_le _, fun _ member => nomatch member⟩ }
  defined fits name definition := fits.define name definition
  traced fits _ := { fits with }
  untraced fits := { fits with }
  cloned fits cloned := fits.clone cloned
  environment fits _ _ := { fits with }

/-- A machine that is reached has the bounds of its configuration. -/
theorem Reachable.fits {config : Config} {m : Machine} (reachable : Reachable config m) :
    m.Fits config :=
  (hostInvariant_fits config).of_reachable
    (fun _ => ⟨rfl, sound_empty _ _, rfl, rfl⟩) reachable

end Machine

end WordMachine
