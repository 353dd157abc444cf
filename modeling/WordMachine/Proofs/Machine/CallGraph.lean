import Mathlib.Data.Finset.Card
import Mathlib.Logic.Relation
import WordMachine.Proofs.Machine.LibraryWords

/-! # Recursion

The compiled words of a dictionary call the words that their tokens name. Where every native word
is one of the library, runs leave this graph as it is, and it decides what calls can do. A run
that meets no cycle of the graph ends, and compiled bodies nest no deeper in it than there are
words (`Machine.run_ends_of_acyclic`). A word that lies on a cycle or leads to one never succeeds
(`Machine.fails_of_reachesCycle`): its body has a token of the same kind, so a success would need
a success of smaller depth.
-/

namespace WordMachine

namespace Dictionary

/-- The words that tokens name. A numeral names none. -/
structure Named (d : Dictionary) (tokens : List String) (name : String) : Prop where
  token : name ∈ tokens
  word : Token.classify name = .word name
  known : name ∈ d.names

/-- A compiled word calls the words that its tokens name. -/
def Calls (d : Dictionary) (caller callee : String) : Prop :=
  ∃ tokens, d.body? caller = some (.compiled tokens) ∧ d.Named tokens callee

/-- A word leads to another by calls, none or more. -/
def Reaches (d : Dictionary) : String → String → Prop :=
  Relation.ReflTransGen d.Calls

/-- A word lies on a cycle of calls or leads to one. -/
def ReachesCycle (d : Dictionary) (name : String) : Prop :=
  ∃ other, d.Reaches name other ∧ Relation.TransGen d.Calls other other

variable {d : Dictionary}

theorem ReachesCycle.of_calls {caller callee : String} (calls : d.Calls caller callee)
    (cycle : d.ReachesCycle callee) : d.ReachesCycle caller := by
  obtain ⟨other, reaches, loop⟩ := cycle
  exact ⟨other, .head calls reaches, loop⟩

/-- A word that leads to a cycle calls a word that does. -/
theorem ReachesCycle.exists_calls {name : String} (cycle : d.ReachesCycle name) :
    ∃ callee, d.Calls name callee ∧ d.ReachesCycle callee := by
  obtain ⟨other, reaches, loop⟩ := cycle
  rcases Relation.ReflTransGen.cases_head reaches with rfl | ⟨callee, calls, rest⟩
  · obtain ⟨callee, calls, back⟩ := Relation.TransGen.head'_iff.mp loop
    exact ⟨callee, calls, name, back, loop⟩
  · exact ⟨callee, calls, other, rest, loop⟩

theorem ReachesCycle.exists_named {name : String} {tokens : List String}
    (cycle : d.ReachesCycle name) (found : d.body? name = some (.compiled tokens)) :
    ∃ callee, d.Named tokens callee ∧ d.ReachesCycle callee := by
  obtain ⟨callee, ⟨_, compiled, named⟩, again⟩ := cycle.exists_calls
  cases found.symm.trans compiled
  exact ⟨callee, named, again⟩

theorem not_reachesCycle_of_native {name : String} {native : Native}
    (found : d.body? name = some (.native native)) : ¬d.ReachesCycle name := by
  intro cycle
  obtain ⟨_, ⟨_, compiled, _⟩, _⟩ := cycle.exists_calls
  cases found.symm.trans compiled

/-! ## Ranks -/

open Classical in
/-- The words to which a word leads, itself included. -/
noncomputable def reached (d : Dictionary) (name : String) : Finset String :=
  d.names.toFinset.filter (d.Reaches name)

/-- How many words a word leads to, itself included. -/
noncomputable def rank (d : Dictionary) (name : String) : Nat :=
  (d.reached name).card

theorem mem_reached_iff {name other : String} :
    other ∈ d.reached name ↔ other ∈ d.names ∧ d.Reaches name other := by
  classical
  unfold reached
  rw [Finset.mem_filter, List.mem_toFinset]

theorem rank_le_size (d : Dictionary) (name : String) : d.rank name ≤ d.size := by
  have subset : d.reached name ⊆ d.names.toFinset := by
    intro other member
    exact List.mem_toFinset.mpr (mem_reached_iff.mp member).1
  calc d.rank name ≤ d.names.toFinset.card := Finset.card_le_card subset
    _ ≤ d.names.length := d.names.toFinset_card_le
    _ = d.size := List.length_map _

theorem rank_pos {name : String} (known : name ∈ d.names) : 0 < d.rank name :=
  Finset.card_pos.mpr ⟨name, mem_reached_iff.mpr ⟨known, .refl⟩⟩

/-- Off the cycles, the rank falls with every call: the caller is no longer reached. -/
theorem rank_lt_of_calls {caller callee : String} (calls : d.Calls caller callee)
    (acyclic : ¬d.ReachesCycle caller) : d.rank callee < d.rank caller := by
  have known : caller ∈ d.names := by
    obtain ⟨_, found, _⟩ := calls
    exact mem_names_of_body? found
  apply Finset.card_lt_card
  rw [Finset.ssubset_iff_of_subset]
  · refine ⟨caller, mem_reached_iff.mpr ⟨known, .refl⟩, fun again => acyclic ?_⟩
    obtain ⟨_, back⟩ := mem_reached_iff.mp again
    exact ⟨caller, .refl, .head' calls back⟩
  · intro other member
    obtain ⟨inside, reaches⟩ := mem_reached_iff.mp member
    exact mem_reached_iff.mpr ⟨inside, .head calls reaches⟩

/-- Tokens name words that lead to no cycle and whose ranks are within a bound. -/
def Settled (d : Dictionary) (bound : Nat) (tokens : List String) : Prop :=
  ∀ name, d.Named tokens name → ¬d.ReachesCycle name ∧ d.rank name ≤ bound

theorem Settled.rest {bound : Nat} {token : String} {rest : List String}
    (settled : d.Settled bound (token :: rest)) : d.Settled bound rest :=
  fun name named => settled name ⟨.tail _ named.token, named.word, named.known⟩

/-- What a settled token calls is settled one level deeper. -/
theorem Settled.called {bound : Nat} {token : String} {rest tokens : List String}
    (settled : d.Settled bound (token :: rest)) (meaning : Token.classify token = .word token)
    (found : d.body? token = some (.compiled tokens)) :
    ∃ below, bound = below + 1 ∧ d.Settled below tokens := by
  have known := mem_names_of_body? found
  obtain ⟨acyclic, within⟩ := settled token ⟨.head _, meaning, known⟩
  have positive : 0 < bound := Nat.lt_of_lt_of_le (rank_pos known) within
  refine ⟨bound - 1, by omega, fun name named => ?_⟩
  have calls : d.Calls token name := ⟨tokens, found, named⟩
  have lower := rank_lt_of_calls calls acyclic
  exact ⟨mt (.of_calls calls) acyclic, by omega⟩

end Dictionary

namespace Machine

/-! ## Runs without recursion end -/

/-- Settled tokens run to an end. -/
theorem exists_runs_of_settled {d : Dictionary} (library : d.NativesOfLibrary) {bound : Nat}
    {m : Machine} (same : m.dictionary.body? = d.body?) {tokens : List String}
    (settled : d.Settled bound tokens) : ∃ o, Runs bound m tokens o := by
  -- The graph is that of the dictionary at the start: machines on the way have the same bodies,
  -- but not the same counts of uses.
  induction bound using Nat.strongRecOn generalizing m tokens with
  | ind bound ih_bound =>
  induction tokens generalizing m with
  | nil => exact ⟨_, .done m⟩
  | cons token rest ih =>
      have library_here := library.of_eq same
      rcases acts_or_unfoldsTo m token with ⟨⟨next, error⟩, acts⟩ | ⟨start, inner, finish, unfolds⟩
      · cases error with
        | some error => exact ⟨_, .actFails acts⟩
        | none =>
            have kept := acts.body?_eq library_here
            obtain ⟨o, continues⟩ := ih (kept.trans same) settled.rest
            exact ⟨o, .act acts continues⟩
      · obtain ⟨meaning, found⟩ := unfolds.of_library library_here
        obtain ⟨started, finished⟩ := unfolds.body?_eq
        rw [same] at found
        obtain ⟨below, rfl, inner_settled⟩ := settled.called meaning found
        obtain ⟨⟨reached, error⟩, called⟩ :=
          ih_bound below below.lt_succ_self (started.trans same) inner_settled
        cases error with
        | some error => exact ⟨_, .callFails unfolds called⟩
        | none =>
            have kept : (finish reached).dictionary.body? = d.body? := by
              rw [finished]
              exact ((called.body?_eq (library_here.of_eq started)).trans started).trans same
            obtain ⟨o, continues⟩ := ih kept settled.rest
            exact ⟨o, .call unfolds called continues⟩

/-- **Without recursion every run ends.** If the words that a source names lead to no cycle of
calls, the source runs to an end, and neither do calls nest deeper than there are words nor is a
token dispatched deeper than that. -/
theorem run_ends_of_acyclic {m : Machine} (library : m.dictionary.NativesOfLibrary)
    {source : String}
    (acyclic : ∀ name, m.dictionary.Named (Text.words source) name →
      ¬m.dictionary.ReachesCycle name) :
    ∃ o, (∀ bound, m.dictionary.size ≤ bound → m.run bound source = some o) ∧
      o.machine.TracedWithin m.trace (m.callDepth + m.dictionary.size) := by
  have settled : m.dictionary.Settled m.dictionary.size (Text.words source) :=
    fun name named => ⟨acyclic name named, m.dictionary.rank_le_size name⟩
  obtain ⟨o, runs⟩ := exists_runs_of_settled library (m := m) rfl settled
  refine ⟨o, fun bound enough => runTokens_eq_some_iff.mpr (runs.of_le enough), ?_⟩
  exact runs.tracedWithin (fun _ member => .inl member) (Nat.le_refl _)

/-- Words of two levels run to their end beside a word that calls itself. -/
theorem run_ends_of_acyclic_of_nested :
    let m := (((((Library.bootstrapped 0 .default .millennium).define "SQUARE"
      (.ofTokens ["DUP", "*"])).machine.define "FOURTH"
      (.ofTokens ["SQUARE", "SQUARE"])).machine.define "LOOP"
      (.ofTokens ["LOOP"])).machine.setTracing true)
    m.dictionary.size = 43 ∧ m.dictionary.ReachesCycle "LOOP" ∧
      ∃ o, (∀ bound, 43 ≤ bound → m.run bound "2 FOURTH" = some o) ∧
        o.machine.trace.map TraceEntry.depth = [0, 0, 1, 2, 2, 1, 2, 2] ∧
        o.machine.TracedWithin [] 43 := by
  intro m
  have library : m.dictionary.NativesOfLibrary := by
    apply Dictionary.HoldsLibrary.nativesOfLibrary
    iterate 3 apply invariant_holdsLibrary.define
    exact Library.holdsLibrary_bootstrapped 0 .default .millennium
  have loop : m.dictionary.Calls "LOOP" "LOOP" :=
    ⟨["LOOP"], by decide +kernel, ⟨.head _, by decide +kernel, by decide +kernel⟩⟩
  have square : ¬m.dictionary.ReachesCycle "SQUARE" := by
    intro cycle
    have body : m.dictionary.body? "SQUARE" = some (.compiled ["DUP", "*"]) := by decide +kernel
    have dup : m.dictionary.body? "DUP" = some (.native ⟨22, .core .dup⟩) := by decide +kernel
    have times : m.dictionary.body? "*" = some (.native ⟨2, .core .multiply⟩) := by
      decide +kernel
    obtain ⟨callee, named, again⟩ := cycle.exists_named body
    rcases List.mem_cons.mp named.token with rfl | later
    · exact Dictionary.not_reachesCycle_of_native dup again
    · rw [List.mem_singleton.mp later] at again
      exact Dictionary.not_reachesCycle_of_native times again
  have fourth : ¬m.dictionary.ReachesCycle "FOURTH" := by
    intro cycle
    have body : m.dictionary.body? "FOURTH" = some (.compiled ["SQUARE", "SQUARE"]) := by
      decide +kernel
    obtain ⟨callee, named, again⟩ := cycle.exists_named body
    have token : callee = "SQUARE" := by simpa using named.token
    exact square (token ▸ again)
  have acyclic : ∀ name, m.dictionary.Named (Text.words "2 FOURTH") name →
      ¬m.dictionary.ReachesCycle name := by
    intro name ⟨token, word, _⟩
    have split : Text.words "2 FOURTH" = ["2", "FOURTH"] := by decide +kernel
    rw [split] at token
    rcases List.mem_cons.mp token with rfl | later
    · exact absurd word (by decide +kernel)
    · rw [List.mem_singleton.mp later]
      exact fourth
  have size : m.dictionary.size = 43 := by decide +kernel
  have rest : m.trace = [] ∧ m.callDepth = 0 := by decide +kernel
  obtain ⟨o, ended, within⟩ := run_ends_of_acyclic library acyclic
  rw [size] at ended within
  rw [rest.1, rest.2] at within
  have depths : (m.run 43 "2 FOURTH").map (fun o => o.machine.trace.map TraceEntry.depth) =
      some [0, 0, 1, 2, 2, 1, 2, 2] := by
    decide +kernel
  rw [ended 43 (Nat.le_refl _), Option.map_some, Option.some.injEq] at depths
  exact ⟨size, ⟨"LOOP", .refl, .single loop⟩, o, ended, depths, within⟩

/-! ## Recursion never succeeds -/

theorem Acts.not_compiled {m : Machine} {token : String} {o : Outcome} (acts : m.Acts token o)
    (meaning : Token.classify token = .word token) (tokens : List String) :
    m.dictionary.body? token ≠ some (.compiled tokens) := by
  intro compiled
  cases acts with
  | numeral number => cases number.symm.trans meaning
  | missing _ unknown => cases unknown.symm.trans compiled
  | native _ found => cases found.symm.trans compiled

/-- Tokens of which one leads to a cycle do not all succeed, by induction on the run. -/
theorem Runs.error_ne_none {d : Dictionary} (library : d.NativesOfLibrary) {bound : Nat}
    {m : Machine} {tokens : List String} {o : Outcome} (runs : Runs bound m tokens o)
    (same : m.dictionary.body? = d.body?) {name : String} (named : d.Named tokens name)
    (cycle : d.ReachesCycle name) : o.error ≠ none := by
  induction runs generalizing name with
  | done m => cases named.token
  | actFails | callFails => exact Option.some_ne_none _
  | act acts _ ih =>
      rcases List.mem_cons.mp named.token with rfl | later
      · obtain ⟨_, ⟨tokens, compiled, _⟩, _⟩ := cycle.exists_calls
        rw [← same] at compiled
        exact (acts.not_compiled named.word tokens compiled).elim
      · have kept := acts.body?_eq (library.of_eq same)
        exact ih (kept.trans same) ⟨later, named.word, named.known⟩ cycle
  | call unfolds called _ ih_called ih =>
      obtain ⟨started, finished⟩ := unfolds.body?_eq
      rcases List.mem_cons.mp named.token with rfl | later
      · obtain ⟨_, found⟩ := unfolds.of_library (library.of_eq same)
        rw [same] at found
        -- The body has such a token again, so that the call did not succeed after all.
        obtain ⟨callee, inside, again⟩ := cycle.exists_named found
        exact (ih_called (started.trans same) inside again rfl).elim
      · have kept := called.body?_eq (library.of_eq (started.trans same))
        rw [finished] at ih
        exact ih ((kept.trans started).trans same) ⟨later, named.word, named.known⟩ cycle

/-- **Recursion never succeeds.** A word that lies on a cycle of calls or leads to one ends with an
error or not at all, whether it is executed by name or named in a source. -/
theorem fails_of_reachesCycle {m : Machine} (library : m.dictionary.NativesOfLibrary)
    {name : String} (cycle : m.dictionary.ReachesCycle name) :
    (∀ bound o, m.execute bound name = some o → o.error ≠ none) ∧
      ∀ bound source o, m.dictionary.Named (Text.words source) name →
        m.run bound source = some o → o.error ≠ none := by
  constructor
  · intro bound o ended
    obtain ⟨callee, ⟨tokens, compiled, inside⟩, again⟩ := cycle.exists_calls
    rw [execute, executeWith_of_body _ compiled] at ended
    obtain ⟨inner, called, rfl⟩ := Option.map_eq_some_iff.mp ended
    cases bound with
    | zero => cases called
    | succ bound =>
        have runs : Runs bound _ tokens inner := runTokens_eq_some_iff.mp called
        exact runs.error_ne_none library (m.dictionary.body?_counted name) inside again
  · intro bound source o named ended
    have runs : Runs bound m (Text.words source) o := runTokens_eq_some_iff.mp ended
    exact runs.error_ne_none library rfl named cycle

/-- Two words that call each other drop what is on the stack and then fail. -/
theorem fails_of_reachesCycle_of_mutual :
    let m := (((Library.bootstrapped 0 .default .millennium).define "PING"
      (.ofTokens ["DROP", "PONG"])).machine.define "PONG" (.ofTokens ["PING"])).machine
    m.dictionary.ReachesCycle "PING" ∧
      ∃ o, m.run 6 "1 2 PING" = some o ∧ o.machine.data.depth = 0 ∧ o.error ≠ none := by
  intro m
  have library : m.dictionary.NativesOfLibrary := by
    apply Dictionary.HoldsLibrary.nativesOfLibrary
    iterate 2 apply invariant_holdsLibrary.define
    exact Library.holdsLibrary_bootstrapped 0 .default .millennium
  have ping : m.dictionary.Calls "PING" "PONG" :=
    ⟨["DROP", "PONG"], by decide +kernel, ⟨by decide, by decide +kernel, by decide +kernel⟩⟩
  have pong : m.dictionary.Calls "PONG" "PING" :=
    ⟨["PING"], by decide +kernel, ⟨by decide, by decide +kernel, by decide +kernel⟩⟩
  have cycle : m.dictionary.ReachesCycle "PING" := ⟨"PING", .refl, .head ping (.single pong)⟩
  have ends : (m.run 6 "1 2 PING").map (fun o => o.machine.data.depth) = some 0 := by
    decide +kernel
  obtain ⟨o, ended, depth⟩ := Option.map_eq_some_iff.mp ends
  have named : m.dictionary.Named (Text.words "1 2 PING") "PING" :=
    ⟨by decide +kernel, by decide +kernel, by decide +kernel⟩
  exact ⟨cycle, o, ended, depth, (fails_of_reachesCycle library cycle).2 6 _ o named ended⟩

end Machine

end WordMachine
