import WordMachine.Proofs.Machine.Reachable
import WordMachine.Proofs.Snapshot.Restore
import WordMachine.Proofs.Snapshot.Save

/-! # How long histories get

A redefinition cuts the history of its word to the limit of the dictionary. A definition of
a new name does not: a history that it brings along is kept whole, and so is the stored
history of a restored word whose name is new. These are the only ways past the limit. Along
a run of a host every history stays within the limit exactly if no such history is longer. The host
may put functions behind native words that define words and restore snapshots themselves, as long
as what these hand in is within the limit.
-/

namespace WordMachine

namespace Dictionary

/-- No word has more superseded versions than the limit allows. -/
def HistoriesWithin (d : Dictionary) : Prop :=
  ∀ w ∈ d.words, w.history.length ≤ d.historyLimit

theorem length_newest_le (limit : Nat) (history : List Revision) :
    (newest limit history).length ≤ limit := by
  rw [newest, List.length_drop]
  omega

theorem nodup_names_afterDefines {d : Dictionary} (distinct : d.names.Nodup) (now : Instant)
    (definitions : List (String × Definition)) :
    (d.afterDefines now definitions).names.Nodup := by
  induction definitions generalizing d with
  | nil => exact distinct
  | cons p rest ih =>
      rw [afterDefines_cons]
      apply ih
      rw [names_afterDefine]
      split
      · exact distinct
      · next fresh => exact List.concat_eq_append ▸ distinct.concat fresh

/-- The last of several definitions of a name makes its word. -/
theorem find?_afterDefines_of_mem (d : Dictionary) (now : Instant)
    (definitions : List (String × Definition)) {name : String}
    (member : name ∈ definitions.map Prod.fst) :
    ∃ first p rest, definitions = first ++ p :: rest ∧ p.1 = name ∧ name ∉ rest.map Prod.fst ∧
      (d.afterDefines now definitions).find? name =
        some ((d.afterDefines now first).wordDefined now name p.2) := by
  induction definitions generalizing d with
  | nil => cases member
  | cons p rest ih =>
      by_cases later : name ∈ rest.map Prod.fst
      · obtain ⟨first, q, after, rfl, named, absent, found⟩ :=
          ih (d.afterDefine now p.1 p.2) later
        exact ⟨p :: first, q, after, rfl, named, absent, found⟩
      · rw [List.map_cons, List.mem_cons, or_iff_left later] at member
        refine ⟨[], p, rest, rfl, member.symm, later, ?_⟩
        rw [afterDefines_cons, find?_afterDefines_of_notMem _ _ _ _ later, find?_afterDefine,
          if_pos member, member]
        rfl

/-- A name that is missing after definitions was missing before and is not among them. -/
theorem absent_of_find?_afterDefines {d : Dictionary} {now : Instant}
    {definitions : List (String × Definition)} {name : String}
    (missing : (d.afterDefines now definitions).find? name = none) :
    name ∉ d.names ∧ name ∉ definitions.map Prod.fst := by
  rw [find?_eq_none_iff, names_afterDefines, List.mem_append, not_or, List.mem_eraseDups] at missing
  refine ⟨missing.1, fun member => missing.2 (List.mem_filter.mpr ⟨member, ?_⟩)⟩
  simpa using missing.1

/-- Several definitions keep histories within the limit exactly if those of new names that
are defined once bring no longer history along. -/
theorem historiesWithin_afterDefines_iff {d : Dictionary} (distinct : d.names.Nodup)
    (within : d.HistoriesWithin) (now : Instant) (definitions : List (String × Definition)) :
    (d.afterDefines now definitions).HistoriesWithin ↔
      ∀ p ∈ definitions, p.1 ∉ d.names → (definitions.map Prod.fst).count p.1 = 1 →
        (p.2.records now).history.length ≤ d.historyLimit := by
  unfold HistoriesWithin
  rw [afterDefines_historyLimit]
  constructor
  · intro after p member fresh once
    have found := find?_afterDefines_of_count_eq_one d now definitions p member once
    rw [wordDefined, find?_eq_none_iff.mpr fresh] at found
    exact after _ (mem_of_find? found)
  · intro brought w member
    have found := find?_of_mem (nodup_names_afterDefines distinct now definitions) member
    by_cases defined : w.name ∈ definitions.map Prod.fst
    · obtain ⟨first, p, rest, rfl, named, absent, last⟩ :=
        find?_afterDefines_of_mem d now definitions defined
      rw [found, Option.some.injEq] at last
      unfold wordDefined at last
      cases before : (d.afterDefines now first).find? w.name with
      | some old =>
          rw [before, afterDefines_historyLimit] at last
          rw [last]
          exact length_newest_le _ _
      | none =>
          rw [before] at last
          obtain ⟨fresh, absent_before⟩ := absent_of_find?_afterDefines before
          have once : ((first ++ p :: rest).map Prod.fst).count w.name = 1 := by
            rw [List.map_append, List.map_cons, named, List.count_append, List.count_cons_self,
              List.count_eq_zero.mpr absent_before, List.count_eq_zero.mpr absent]
          rw [last]
          rw [← named] at fresh once
          exact brought p (List.mem_append_right _ List.mem_cons_self) fresh once
    · rw [find?_afterDefines_of_notMem _ _ _ _ defined] at found
      exact within w (mem_of_find? found)

/-- A definition keeps histories within the limit exactly if it defines a known name or
brings no longer history along. -/
theorem historiesWithin_afterDefine_iff {d : Dictionary} (distinct : d.names.Nodup)
    (within : d.HistoriesWithin) (now : Instant) (name : String) (definition : Definition) :
    (d.afterDefine now name definition).HistoriesWithin ↔
      (name ∉ d.names → (definition.records now).history.length ≤ d.historyLimit) := by
  have several := historiesWithin_afterDefines_iff distinct within now [(name, definition)]
  rw [afterDefines_cons, afterDefines_nil] at several
  rw [several]
  simp

theorem HistoriesWithin.forget {d next : Dictionary} {name : String} {word : Word}
    (within : d.HistoriesWithin) (forgotten : d.forget name = .ok (word, next)) :
    next.HistoriesWithin := by
  obtain ⟨_, _, rfl⟩ := forget_ok_iff.mp forgotten
  exact fun w member => within w (List.mem_of_mem_filter member)

theorem HistoriesWithin.resolve {d next : Dictionary} {name : String} {body : Body}
    (within : d.HistoriesWithin) (resolved : d.resolve? name = some (body, next)) :
    next.HistoriesWithin := by
  obtain ⟨_, _, _, rfl⟩ := resolve?_eq_some_iff.mp resolved
  intro w member
  obtain ⟨old, present, rfl⟩ := List.mem_map.mp member
  split
  · exact within old present
  · exact within old present

/-- Distinct names and histories within the limit. -/
structure Trim (d : Dictionary) : Prop where
  named : d.WellNamed
  within : d.HistoriesWithin

namespace Trim

/-- A definition that brings no history along keeps a dictionary trim. -/
theorem define {d next : Dictionary} {now : Instant} {name : String} {definition : Definition}
    (trim : d.Trim) (plain : definition.metadata = none)
    (defined : d.define now name definition = .ok next) : next.Trim := by
  refine ⟨trim.named.define defined, ?_⟩
  obtain ⟨_, _, rfl⟩ := define_ok_iff.mp defined
  rw [historiesWithin_afterDefine_iff trim.named.distinct trim.within]
  intro _
  rw [Definition.records, plain]
  exact Nat.zero_le _

theorem forget {d next : Dictionary} {name : String} {word : Word} (trim : d.Trim)
    (forgotten : d.forget name = .ok (word, next)) : next.Trim :=
  ⟨trim.named.forget forgotten, trim.within.forget forgotten⟩

theorem resolve {d next : Dictionary} {name : String} {body : Body} (trim : d.Trim)
    (resolved : d.resolve? name = some (body, next)) : next.Trim :=
  ⟨trim.named.resolve resolved, trim.within.resolve resolved⟩

end Trim

end Dictionary

namespace Snapshot

/-- The versions of a stored history that are not native. -/
def compiledVersions (history : List StoredRevision) : List StoredRevision :=
  history.filter fun revision => revision.word.body ≠ nativeSentinel

/-- A stored history stands for as many versions as it has that are not native. -/
theorem Decodes.length_eq {stored : List StoredRevision} {revisions : List Revision}
    (decodes : Decodes stored revisions) :
    revisions.length = (compiledVersions stored).length := by
  induction decodes with
  | nil => rfl
  | native native _ ih =>
      rw [ih, compiledVersions, compiledVersions, List.filter_cons_of_neg (by simpa using native)]
  | compiled compiled _ _ _ _ ih =>
      rw [List.length_cons, ih, compiledVersions, compiledVersions,
        List.filter_cons_of_pos (by simpa using compiled), List.length_cons]

/-- Every definition that stored words stand for is one of theirs, with as many versions. -/
theorem exists_of_mem_defines {words : List StoredWord} {definitions : List (String × Definition)}
    (defined : List.Forall₂ Defines words definitions) {p : String × Definition}
    (member : p ∈ definitions) (now : Instant) :
    ∃ w ∈ words, p.1 = w.name ∧
      (p.2.records now).history.length = (compiledVersions w.history).length := by
  induction defined with
  | nil => cases member
  | cons defines _ ih =>
      rcases List.mem_cons.mp member with rfl | later
      · obtain ⟨tokens, history, _, decodes, rfl⟩ := defines
        exact ⟨_, List.mem_cons_self, rfl, decodes.length_eq⟩
      · obtain ⟨w, present, same⟩ := ih later
        exact ⟨w, List.mem_cons_of_mem _ present, same⟩

/-- Every stored word stands for one of the definitions, with as many versions. -/
theorem exists_mem_of_defines {words : List StoredWord} {definitions : List (String × Definition)}
    (defined : List.Forall₂ Defines words definitions) {w : StoredWord} (member : w ∈ words)
    (now : Instant) :
    ∃ p ∈ definitions, p.1 = w.name ∧
      (p.2.records now).history.length = (compiledVersions w.history).length := by
  induction defined with
  | nil => cases member
  | cons defines _ ih =>
      rcases List.mem_cons.mp member with rfl | later
      · obtain ⟨tokens, history, _, decodes, rfl⟩ := defines
        exact ⟨_, List.mem_cons_self, rfl, decodes.length_eq⟩
      · obtain ⟨p, present, same⟩ := ih later
        exact ⟨p, List.mem_cons_of_mem _ present, same⟩

end Snapshot

namespace Machine

open Snapshot

/-! ## One operation -/

/-- The histories that an operation hands in for new names are within the limit. A definition
hands in the history of its records, and a restore that succeeds the stored history of every
word with a body of its own. A name that a snapshot holds twice is redefined in the restore. -/
def HandsInWithin (m : Machine) : HostOperation → Prop
  | .define name definition =>
    name ≠ "" → name ∉ m.dictionary.names → ∀ metadata, definition.metadata = some metadata →
      metadata.history.length ≤ m.dictionary.historyLimit
  | .restore s =>
    (m.restore s).error = none → ∀ w ∈ compiledWords s.dictionary, w.name ∉ m.dictionary.names →
      ((compiledWords s.dictionary).map StoredWord.name).count w.name = 1 →
        (compiledVersions w.history).length ≤ m.dictionary.historyLimit
  | _ => True

theorem invariant_trim : Invariant (fun _ => True) fun m => m.dictionary.Trim :=
  invariant_of_dictionary (fun trim defined => trim.define rfl defined) Dictionary.Trim.forget
    Dictionary.Trim.resolve

/-- A definition of a host keeps histories within the limit exactly if what it hands in is. -/
theorem historiesWithin_define_iff {m : Machine} (trim : m.dictionary.Trim) (name : String)
    (definition : Definition) :
    (m.define name definition).machine.dictionary.HistoriesWithin ↔
      m.HandsInWithin (.define name definition) := by
  have kept_whole : (definition.records m.clock).history.length ≤ m.dictionary.historyLimit ↔
      ∀ metadata, definition.metadata = some metadata →
        metadata.history.length ≤ m.dictionary.historyLimit := by
    cases brought : definition.metadata with
    | none => simp [Definition.records, brought, Metadata.fresh]
    | some metadata => simp [Definition.records, brought]
  unfold define HandsInWithin
  rw [Dictionary.define_eq]
  by_cases empty : name = ""
  · rw [if_pos empty]
    exact iff_of_true trim.within fun nonempty => absurd empty nonempty
  · rw [if_neg empty]
    by_cases guarded : m.dictionary.protects name = true
    · rw [if_pos guarded]
      refine iff_of_true trim.within fun _ fresh => ?_
      rw [Dictionary.protects, Dictionary.find?_eq_none_iff.mpr fresh] at guarded
      cases guarded
    · rw [if_neg guarded]
      simp only [done, ne_eq, empty, not_false_eq_true, forall_const]
      rw [Dictionary.historiesWithin_afterDefine_iff trim.named.distinct trim.within, kept_whole]

/-- A restore keeps histories within the limit exactly if what it hands in is. -/
theorem historiesWithin_restore_iff {m : Machine} (trim : m.dictionary.Trim) (s : Snapshot) :
    (m.restore s).machine.dictionary.HistoriesWithin ↔ m.HandsInWithin (.restore s) := by
  obtain ⟨error, failed⟩ | ⟨definitions, _, _, read, restored⟩ := restore_cases m s
  · rw [HandsInWithin, failed]
    exact iff_of_true trim.within fun succeeded => nomatch succeeded
  · have defined := (readWords_ok_iff.mp read).2
    have names := names_of_defines defined
    have several := Dictionary.historiesWithin_afterDefines_iff trim.named.distinct trim.within
      m.clock definitions
    rw [HandsInWithin, restored]
    simp only [done, afterRestore, several, names, forall_const]
    constructor
    · intro brought w member fresh once
      obtain ⟨p, present, named, versions⟩ := exists_mem_of_defines defined member m.clock
      rw [← named] at fresh once
      rw [← versions]
      exact brought p present fresh once
    · intro brought p member fresh once
      obtain ⟨w, present, named, versions⟩ := exists_of_mem_defines defined member m.clock
      rw [named] at fresh once
      rw [versions]
      exact brought w present fresh once

theorem metadata_of_mem_words {identity : Nat} {parts : List Library.Part}
    {p : String × Definition} (member : p ∈ Library.words identity parts) :
    p.2.metadata = none := by
  obtain ⟨part, _, inside⟩ := List.mem_flatMap.mp member
  cases part with
  | core =>
      obtain ⟨index, _, rfl⟩ := List.mem_mapIdx.mp inside
      rfl
  | console =>
      obtain ⟨index, _, rfl⟩ := List.mem_mapIdx.mp inside
      rfl

/-- Definitions that bring no history along keep a dictionary trim, also when one fails. -/
theorem trim_defineAll {m : Machine} (trim : m.dictionary.Trim)
    {definitions : List (String × Definition)}
    (plain : ∀ p ∈ definitions, p.2.metadata = none) :
    (m.defineAll definitions).machine.dictionary.Trim := by
  induction definitions generalizing m with
  | nil => exact trim
  | cons p rest ih =>
      rw [List.forall_mem_cons] at plain
      unfold defineAll
      split
      · next defined => exact ih (trim.define plain.1 defined) plain.2
      · exact trim

/-- An operation that runs nothing keeps histories within the limit exactly if what it hands in
is. -/
theorem historiesWithin_direct_iff {m next : Machine} (trim : m.dictionary.Trim)
    {operation : HostOperation} (direct : operation.Direct)
    (performed : m.perform operation = some next) :
    next.dictionary.HistoriesWithin ↔ m.HandsInWithin operation := by
  cases operation with
  | run | load | execute | executeWord | dispatch => exact direct.elim
  | define name definition =>
      cases performed
      exact historiesWithin_define_iff trim name definition
  | restore s =>
      cases performed
      exact historiesWithin_restore_iff trim s
  | install identity parts =>
      cases performed
      exact iff_of_true (trim_defineAll trim fun _ => metadata_of_mem_words).within trivial
  | push v =>
      cases performed
      exact iff_of_true (invariant_trim.push trim v trivial).within trivial
  | pop =>
      cases performed
      refine iff_of_true ?_ trivial
      rw [popped, onStack_dictionary]
      exact trim.within
  | «forget» name =>
      cases performed
      exact iff_of_true (invariant_trim.forget trim name).within trivial
  | setTracing on =>
      cases performed
      exact iff_of_true trim.within trivial
  | clearTrace =>
      cases performed
      exact iff_of_true trim.within trivial

/-- All that a host does keeps a dictionary trim as long as what it hands in is within the
limit. -/
theorem keptByHosts_trim : KeptByHosts HandsInWithin fun _ m => m.dictionary.Trim where
  core trim word := invariant_trim.core trim word
  console trim word := invariant_trim.console trim word
  push trim v := invariant_trim.push trim v trivial
  define trim name effect tokens := invariant_trim.define trim name effect tokens
  forget trim name := invariant_trim.forget trim name
  record trim token := invariant_trim.record trim token
  enter trim := invariant_trim.enter trim
  leave trim := invariant_trim.leave trim
  resolved trim _ _ _ found := (invariant_trim.resolved trim _ _ _ found).2
  operate trim direct admitted performed :=
    ⟨dictionaryInvariant_wellNamed.hostInvariant.operations.direct trim.named direct performed,
      (historiesWithin_direct_iff trim direct performed).mpr admitted⟩

/-- **One step.** An operation of a host keeps histories within the limit exactly if what it
hands in is. -/
theorem historiesWithin_perform_iff {natives : Natives}
    (hosts : natives.OwnOr (NativeFunction.ActsWithin HandsInWithin)) {m next : Machine}
    (trim : m.dictionary.Trim) (operation : HostOperation)
    (performed : natives.perform m operation = some next) :
    next.dictionary.HistoriesWithin ↔ m.HandsInWithin operation := by
  have ran : (operation.Direct → m.HandsInWithin operation) → next.dictionary.Trim :=
    fun admitted => keptByHosts_trim.perform hosts 0 trim admitted performed
  cases operation with
  | run | load | execute | executeWord | dispatch => exact iff_of_true (ran nofun).within trivial
  | push | pop | define | «forget» | install | restore | setTracing | clearTrace =>
      exact historiesWithin_direct_iff trim trivial performed

/-! ## Runs -/

/-- A run of a host from the machine without words of a configuration: the operations that it
performed, each with the machine that it was performed on, and the machine that it reached. Behind
native words there may be functions that hand in no history beyond the limit themselves, and others
from one operation to the next. -/
inductive HostRun (config : Config) : List (Machine × HostOperation) → Machine → Prop where
  | initial (clock : Instant) : HostRun config [] (.ofConfig config clock)
  | environment {log : List (Machine × HostOperation)} {m : Machine} (clock : Instant)
      (console : Console) : HostRun config log m → HostRun config log { m with clock, console }
  | hosted {log : List (Machine × HostOperation)} {m next : Machine} {natives : Natives}
      (hosts : natives.OwnOr (NativeFunction.ActsWithin HandsInWithin))
      (operation : HostOperation) :
      HostRun config log m → natives.perform m operation = some next →
        HostRun config (log ++ [(m, operation)]) next
  | clone {log : List (Machine × HostOperation)} {m copy : Machine} :
      HostRun config log m → m.clone = .ok copy → HostRun config log copy

/-- A machine whose native words are its own performs an operation. -/
theorem HostRun.step {config : Config} {log : List (Machine × HostOperation)} {m next : Machine}
    (operation : HostOperation) (run : HostRun config log m)
    (performed : m.perform operation = some next) :
    HostRun config (log ++ [(m, operation)]) next := by
  rw [← Natives.perform_own] at performed
  exact .hosted (fun _ => .inl rfl) operation run performed

theorem HostRun.reachable {config : Config} {log : List (Machine × HostOperation)} {m : Machine}
    (run : HostRun config log m) : Reachable config m := by
  induction run with
  | initial clock => exact .initial clock
  | environment clock console _ ih => exact .environment clock console ih
  | hosted hosts operation _ performed ih =>
      exact .hosted (hosts.mono fun _ => NativeFunction.ActsWithin.actsByMoves) operation ih
        performed
  | clone _ cloned ih => exact .clone ih cloned

/-- A machine that is made from a snapshot beside a part of the library is reached by an
installation and a restore. -/
theorem hostRun_ofSnapshot {clock : Instant} {identity : Nat} {parts : List Library.Part}
    {s : Snapshot} {m : Machine}
    (made : ofSnapshot clock (Library.install identity parts) s = .ok m) :
    HostRun s.config
      [(.ofConfig s.config clock, .install identity parts),
        ((Library.install identity parts (.ofConfig s.config clock)).machine, .restore s)] m := by
  obtain ⟨_, _, rfl⟩ := ofSnapshot_ok_iff.mp made
  exact ((HostRun.initial clock).step (.install identity parts) rfl).step (.restore s) rfl

/-- **When histories stay within the limit.** Along a run of a host no word ever has more
superseded versions than the limit allows, exactly if no definition of a new name and no
restored word with a new name brings a longer history along. -/
theorem historiesWithin_run_iff {config : Config} {log : List (Machine × HostOperation)}
    {m : Machine} (run : HostRun config log m) :
    ((∀ p ∈ log, p.1.dictionary.HistoriesWithin) ∧ m.dictionary.HistoriesWithin) ↔
      ∀ p ∈ log, p.1.HandsInWithin p.2 := by
  induction run with
  | initial clock =>
      refine iff_of_true ⟨?_, ?_⟩ ?_
      · exact fun _ member => nomatch member
      · exact fun _ member => nomatch member
      · exact fun _ member => nomatch member
  | environment clock console _ ih => exact ih
  | clone before cloned ih =>
      rw [clone_dictionary_eq before.reachable.wellNamed cloned]
      exact ih
  | @hosted log m next natives hosts operation before performed ih =>
      have named := before.reachable.wellNamed
      simp only [List.mem_append, List.mem_singleton, or_imp, forall_and, forall_eq]
      constructor
      · rintro ⟨⟨earlier, here⟩, after⟩
        exact ⟨ih.mp ⟨earlier, here⟩,
          (historiesWithin_perform_iff hosts ⟨named, here⟩ operation performed).mp after⟩
      · rintro ⟨earlier, handed⟩
        obtain ⟨before, here⟩ := ih.mpr earlier
        exact ⟨⟨before, here⟩,
          (historiesWithin_perform_iff hosts ⟨named, here⟩ operation performed).mpr handed⟩

/-- A machine that is made from a snapshot whose word brings one version along, and then a
redefinition with forty versions of its own, which is cut to the limit. -/
theorem historiesWithin_run_iff_of_snapshot :
    let stored : StoredWord := ⟨"X", "( -- )", "[]", false, .millennium, 0, [], none⟩
    let s : Snapshot := ⟨currentVersion, .millennium, [],
      [{ stored with history := [⟨stored, .millennium⟩] }], none, none⟩
    let version : Revision := ⟨({} : Definition).toWord "X" .millennium, .millennium⟩
    let long : Definition :=
      { metadata := some ⟨.millennium, 0, none, List.replicate 40 version⟩ }
    ∃ m log, ofSnapshot .millennium (Library.install 0 Library.full) s = .ok m ∧
      HostRun s.config log (m.define "X" long).machine ∧
      ((m.define "X" long).machine.dictionary.find? "X").map (fun w => w.history.length) =
        some 32 ∧
      (∀ p ∈ log, p.1.HandsInWithin p.2) ∧
      (m.define "X" long).machine.dictionary.HistoriesWithin := by
  intro stored s version long
  let installed := (Library.install 0 Library.full (.ofConfig s.config .millennium)).machine
  let m := (installed.restore s).machine
  have made : ofSnapshot .millennium (Library.install 0 Library.full) s = .ok m :=
    ofSnapshot_ok_iff.mpr ⟨by decide +kernel, by decide +kernel, rfl⟩
  have run := (hostRun_ofSnapshot made).step (.define "X" long) rfl
  have known : "X" ∈ m.dictionary.names := by decide +kernel
  have versions : (compiledVersions [⟨stored, .millennium⟩]).length ≤
      installed.dictionary.historyLimit := by decide +kernel
  have handed : ∀ p ∈ [(ofConfig s.config .millennium, .install 0 Library.full),
      (installed, .restore s)] ++ [(m, .define "X" long)], p.1.HandsInWithin p.2 := by
    simp only [List.cons_append, List.nil_append, List.forall_mem_cons]
    refine ⟨trivial, ?_, fun _ fresh => absurd known fresh, List.forall_mem_nil _⟩
    intro _ w member _ _
    cases List.mem_singleton.mp (List.mem_of_mem_filter member)
    exact versions
  exact ⟨m, _, made, run, by decide +kernel, handed, ((historiesWithin_run_iff run).mpr handed).2⟩

/-- A definition of a new name brings two versions along where the limit is one, and both
stay. -/
theorem not_historiesWithin_of_new_name :
    let config : Config := { Config.default with historyLimit := 1 }
    let version (token : String) : Revision :=
      ⟨(Definition.ofTokens [token]).toWord "X" .millennium, .millennium⟩
    let definition : Definition :=
      { metadata := some ⟨.millennium, 0, none, [version "1", version "2"]⟩ }
    ∃ m, HostRun config [(ofConfig config .millennium, .define "X" definition)] m ∧
      m.dictionary.historyLimit = 1 ∧
      (m.dictionary.find? "X").map (fun w => w.history.length) = some 2 ∧
      ¬m.dictionary.HistoriesWithin := by
  intro config version definition
  let m := ((ofConfig config .millennium).define "X" definition).machine
  have start : HostRun config [] (ofConfig config .millennium) := .initial .millennium
  have run := start.step (.define "X" definition) rfl
  refine ⟨m, run, rfl, by decide +kernel, fun within => ?_⟩
  have long := within (definition.toWord "X" .millennium) (List.mem_singleton.mpr rfl)
  exact absurd long (by decide +kernel)

end Machine

end WordMachine
