import Mathlib.Data.List.Forall2
import WordMachine.Proofs.Machine.LibraryWords
import WordMachine.Proofs.Machine.TraceTail

/-! # Running edits no word

On a machine of library words, all that a run changes about the dictionary is how often words were
used, and each word counts the tokens of its name in the journal of the run, modulo the size of its
counter. The uses are counted where a name is resolved and the journal is written where a token is
dispatched; the two agree at every level of calls, and also when the run fails on the way.
-/

namespace WordMachine

namespace Dictionary

/-! ## Uses -/

/-- The dictionary after uses of some names: every word counts those of its own. -/
def afterUses (d : Dictionary) (uses : List String) : Dictionary :=
  { d with
    words := d.words.map fun w => { w with usage := w.usage + UInt64.ofNat (uses.count w.name) } }

@[simp]
theorem afterUses_nil (d : Dictionary) : d.afterUses [] = d := by
  have kept : d.words.map (fun w => { w with usage := w.usage + UInt64.ofNat ([].count w.name) }) =
      d.words := by
    apply List.map_id''
    intro w
    have none : w.usage + UInt64.ofNat ([].count w.name) = w.usage := UInt64.add_zero _
    rw [none]
    cases w
    rfl
  rw [afterUses, kept]

theorem afterUses_cons (d : Dictionary) (name : String) (uses : List String) :
    d.afterUses (name :: uses) = (d.counted name).afterUses uses := by
  unfold afterUses counted replace
  rw [List.map_map]
  congr 1
  apply List.map_congr_left
  intro w _
  simp only [Function.comp_apply, List.count_cons]
  by_cases named : w.name = name
  · simp only [named, beq_self_eq_true, ↓reduceIte, Word.used, UInt64.ofNat_add]
    rw [UInt64.add_assoc, UInt64.add_comm 1]
    rfl
  · simp [named, Ne.symm named]

theorem afterUses_append (d : Dictionary) (first later : List String) :
    d.afterUses (first ++ later) = (d.afterUses first).afterUses later := by
  induction first generalizing d with
  | nil => rw [afterUses_nil, List.nil_append]
  | cons name rest ih => rw [List.cons_append, afterUses_cons, afterUses_cons, ih]

/-- Uses leave every body as it is. -/
theorem body?_afterUses (d : Dictionary) (uses : List String) :
    (d.afterUses uses).body? = d.body? := by
  induction uses generalizing d with
  | nil => rw [afterUses_nil]
  | cons name rest ih => rw [afterUses_cons, ih, body?_counted]

/-- The second dictionary has the words of the first in the same order, each with all that belongs
to it but for the number of its uses. -/
structure SameButUses (d d' : Dictionary) : Prop where
  historyLimit : d'.historyLimit = d.historyLimit
  words : List.Forall₂ (fun w w' => w' = { w with usage := w'.usage }) d.words d'.words

/-- The number of tokens that use the word of a name; a numeral uses none. -/
def usesOf (tokens : List String) (name : String) : Nat :=
  if Token.classify name = .word name then tokens.count name else 0

/-- The second dictionary is the first after tokens used its words: besides, each word has counted
the tokens of its name, unless this is a numeral. The count begins again at zero after `2 ^ 64 - 1`
uses, so that it is exact where it stays below. -/
structure UsedBy (d : Dictionary) (tokens : List String) (d' : Dictionary) : Prop extends
    SameButUses d d' where
  counted : List.Forall₂
    (fun w w' => w'.usage.toNat = (w.usage.toNat + usesOf tokens w.name) % UInt64.size)
    d.words d'.words

theorem sameButUses_afterUses (d : Dictionary) (uses : List String) :
    d.SameButUses (d.afterUses uses) := by
  refine ⟨rfl, ?_⟩
  rw [afterUses, List.forall₂_map_right_iff]
  apply List.forall₂_same.mpr
  intro w _
  rfl

/-- The tokens that name words are counted, and numerals are not. -/
theorem usedBy_afterUses (d : Dictionary) (tokens : List String) :
    d.UsedBy tokens
      (d.afterUses (tokens.filter fun token => Token.classify token = .word token)) := by
  refine ⟨d.sameButUses_afterUses _, ?_⟩
  rw [afterUses, List.forall₂_map_right_iff]
  apply List.forall₂_same.mpr
  intro w _
  rw [UInt64.toNat_add, UInt64.toNat_ofNat', Nat.add_mod_mod]
  unfold usesOf
  split
  case isTrue word =>
    have kept : (tokens.filter fun token => Token.classify token = .word token).count w.name =
        tokens.count w.name := List.count_filter (by simpa using word)
    rw [kept]
  case isFalse numeral =>
    have absent : w.name ∉ tokens.filter fun token => Token.classify token = .word token := by
      intro member
      exact numeral (of_decide_eq_true (List.mem_filter.mp member).2)
    rw [List.count_eq_zero.mpr absent]

end Dictionary

namespace Machine

/-! ## Runs -/

/-- A program that asks for nothing and leaves the dictionary as it is. -/
def HostProgram.KeepsDictionary : HostProgram → Prop
  | .finish _ => True
  | .look next => ∀ m, (next m).KeepsDictionary
  | .operate operation next =>
    (∀ m, (operation m).machine.dictionary = m.dictionary) ∧ ∀ error, (next error).KeepsDictionary
  | .ask _ _ => False

theorem HostProgram.keepsDictionary_ofAction {action : Action} (library : action.OfLibrary) :
    (ofAction action).KeepsDictionary := by
  cases action with
  | core word => exact ⟨fun m => onStack_dictionary m word.run, fun _ => trivial⟩
  | console word => exact ⟨fun m => consoleWord_dictionary m word, fun _ => trivial⟩
  | host => exact library.elim

namespace Task

/-- The task of a machine of library words: native bodies are those of the library. -/
def OfLibrary : Task → Prop
  | .invocation (.executeBody (.native native)) => native.action.OfLibrary
  | .invocation _ => True
  | .program rest => rest.KeepsDictionary

/-- The use of a word that a task starts with, where no token was dispatched for it. -/
def uses : Task → List String
  | .invocation (.execute name) => [name]
  | _ => []

end Task

/-- The tokens that name words, of those that were dispatched. -/
def wordTokens (entries : List TraceEntry) : List String :=
  (entries.map TraceEntry.token).filter fun token => Token.classify token = .word token

theorem wordTokens_append (first later : List TraceEntry) :
    wordTokens (first ++ later) = wordTokens first ++ wordTokens later := by
  rw [wordTokens, List.map_append, List.filter_append]
  rfl

theorem tokens_map_raised (levels : Nat) (entries : List TraceEntry) :
    (entries.map (TraceEntry.raised levels)).map TraceEntry.token =
      entries.map TraceEntry.token := by
  rw [List.map_map]
  rfl

/-- A task changes the dictionary by the uses of its journal and by nothing else, by induction on
the rules. -/
theorem Performs.dictionary_eq {bound : Nat} {m : Machine} {task : Task} {o : Outcome}
    {journal : List Event} (performs : Performs Natives.ownPrograms bound m task o journal)
    (library : m.dictionary.NativesOfLibrary) (own : task.OfLibrary) :
    o.machine.dictionary =
      m.dictionary.afterUses (task.uses ++ wordTokens (Event.entries journal)) := by
  induction performs with
  | done m | finish m => exact m.dictionary.afterUses_nil.symm
  | @next _ m next _ _ o first later _ _ ih_first ih =>
      have dispatched :
          next.dictionary = m.dictionary.afterUses (wordTokens (Event.entries first)) :=
        ih_first library trivial
      have after : next.dictionary.NativesOfLibrary := by
        apply library.of_eq
        rw [dispatched, Dictionary.body?_afterUses]
      calc o.machine.dictionary
          = next.dictionary.afterUses (wordTokens (Event.entries later)) := ih after trivial
        _ = (m.dictionary.afterUses (wordTokens (Event.entries first))).afterUses
              (wordTokens (Event.entries later)) := by
            rw [dispatched]
        _ = m.dictionary.afterUses (wordTokens (Event.entries (first ++ later))) := by
            rw [Event.entries_append, wordTokens_append, Dictionary.afterUses_append]
  | stop _ ih => exact ih library trivial
  | @numeral _ m token x meaning =>
      have none : wordTokens (Event.entries [.dispatched ⟨0, token, m.data.depth⟩]) = [] := by
        simp [Event.entries, Event.entry?, wordTokens, meaning]
      rw [none, push, onStack_dictionary, record_dictionary]
      exact m.dictionary.afterUses_nil.symm
  | @word _ m token _ journal meaning _ ih =>
      have one : wordTokens (Event.entries (.dispatched ⟨0, token, m.data.depth⟩ :: journal)) =
          token :: wordTokens (Event.entries journal) := by
        simp [Event.entries, Event.entry?, wordTokens, meaning]
      rw [record_dictionary] at ih
      rw [one]
      exact ih library trivial
  | @missing _ m name unknown =>
      change m.dictionary = m.dictionary.afterUses [name]
      rw [Dictionary.afterUses_cons, Dictionary.afterUses_nil,
        Dictionary.counted_of_unknown unknown]
  | @found _ m name body _ journal known _ ih =>
      -- The use is counted here, for the token that was dispatched or for the task itself.
      have inside : (Task.invocation (.executeBody body)).OfLibrary := by
        cases body with
        | native native => exact library name native known
        | compiled tokens => exact trivial
      change _ = m.dictionary.afterUses (name :: wordTokens (Event.entries journal))
      rw [Dictionary.afterUses_cons]
      exact ih (library.of_eq (m.dictionary.body?_counted name)) inside
  | @compiled _ m _ _ journal _ ih =>
      have same : wordTokens (Event.entries (journal.map (.raised 1))) =
          wordTokens (Event.entries journal) := by
        rw [Event.entries_map_raised, wordTokens, tokens_map_raised]
        rfl
      rw [same]
      exact ih library trivial
  | native _ ih => exact ih library (HostProgram.keepsDictionary_ofAction own)
  | look _ ih => exact ih library (own _)
  | @operate _ m _ _ _ _ _ ih =>
      have kept := own.1 m
      rw [kept] at ih
      exact ih library (own.2 _)
  | ask => exact own.elim

theorem length_traceTail (m : Machine) (entries : List TraceEntry) :
    (m.traceTail entries).length =
      min m.config.traceLimit (m.trace.length + entries.length) := by
  rw [traceTail, List.rtake, List.length_drop, List.length_append, List.length_map]
  omega

/-- A trace that was empty and can hold all that is recorded has its tokens. -/
theorem tokens_trace_eq {m last : Machine} {entries : List TraceEntry} (on : m.tracing = true)
    (empty : m.trace = []) (fits : entries.length ≤ m.config.traceLimit)
    (same : last.traceState = m.traceState.after entries) :
    last.trace.map TraceEntry.token = entries.map TraceEntry.token := by
  have within : m.trace.length ≤ m.config.traceLimit := by
    rw [empty]
    exact Nat.zero_le _
  have whole : m.traceTail entries = entries.map (.raised m.callDepth) := by
    rw [traceTail, empty, List.nil_append, List.rtake, List.length_map,
      Nat.sub_eq_zero_of_le fits, List.drop_zero]
  rw [trace_eq_traceTail on within same, whole, tokens_map_raised]

end Machine

end WordMachine
