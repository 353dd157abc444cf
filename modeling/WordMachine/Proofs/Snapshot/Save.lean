import WordMachine.Proofs.Json.RoundTrip
import WordMachine.Proofs.Library
import WordMachine.Proofs.Machine.Reachable
import WordMachine.Proofs.Snapshot.Restore
import WordMachine.Snapshot.Save

/-! # Saving what was restored

A saved machine that is restored beside the library and saved again gives the first
snapshot without its native parts: native words, and native versions with everything
below them. Nothing else is lost, because a stored body reads back as its tokens and a
restored word keeps all that a snapshot stores of it.
-/

namespace WordMachine

namespace Snapshot

/-! ## Bodies -/

/-- Texts are read back from JSON one by one. -/
theorem mapM_text?_ofText (texts : List String) :
    (texts.map Json.ofText).mapM Json.text? = some texts := by
  induction texts with
  | nil => rfl
  | cons text rest ih => simp [ih, Json.ofText, Json.text?]

/-- The tokens of a stored body read back. -/
theorem bodyTokens?_bodyText (tokens : List String) :
    bodyTokens? (bodyText (.compiled tokens)) = some tokens := by
  have writable : Json.Writable (.array (tokens.map .ofText)) := by
    refine .array fun item member => ?_
    obtain ⟨token, _, rfl⟩ := List.mem_map.mp member
    exact .text token
  rw [bodyTokens?, bodyText, Json.read?_compact writable, Option.bind_some, Json.list?,
    mapM_text?_ofText]

/-- The text of a compiled body is never the mark of a native one. -/
theorem bodyText_compiled_ne (tokens : List String) :
    bodyText (.compiled tokens) ≠ nativeSentinel := by
  intro same
  have characters := congrArg String.toList same
  rw [bodyText, Json.compact, String.toList_ofList] at characters
  cases tokens with
  | nil => exact absurd characters (by decide)
  | cons token rest =>
      rw [List.map_cons, Json.compactChars, List.cons_append] at characters
      exact absurd (List.cons.inj characters).1 (by decide)

/-- Compiled bodies are told apart by their texts. -/
theorem bodyText_compiled_injective :
    Function.Injective fun tokens => bodyText (.compiled tokens) := by
  intro tokens others same
  have read := congrArg bodyTokens? same
  rw [bodyTokens?_bodyText, bodyTokens?_bodyText] at read
  exact Option.some.inj read

/-! ## Native parts -/

mutual

/-- A stored word without the native versions in its history. -/
def prunedWord : StoredWord → StoredWord
  | ⟨name, effect, body, immediate, defined, usage, history, documentation⟩ =>
    ⟨name, effect, body, immediate, defined, usage, prunedHistory history, documentation⟩

/-- A stored history without native versions and all that lies below them. -/
def prunedHistory : List StoredRevision → List StoredRevision
  | [] => []
  | ⟨word, redefined⟩ :: rest =>
    if word.body = nativeSentinel then prunedHistory rest
    else ⟨prunedWord word, redefined⟩ :: prunedHistory rest

end

/-- A snapshot without its native parts. -/
def pruned (s : Snapshot) : Snapshot :=
  { s with dictionary := (compiledWords s.dictionary).map prunedWord }

theorem prunedWord_eq (w : StoredWord) :
    prunedWord w = { w with history := prunedHistory w.history } := by
  cases w
  rw [prunedWord]

/-- A native version is taken out, with all that lies below it. -/
theorem prunedHistory_of_native {revision : StoredRevision}
    (native : revision.word.body = nativeSentinel) (rest : List StoredRevision) :
    prunedHistory (revision :: rest) = prunedHistory rest := by
  obtain ⟨word, redefined⟩ := revision
  rw [prunedHistory, if_pos native]

/-- A compiled version stays, without its own native versions. -/
theorem prunedHistory_of_compiled {revision : StoredRevision}
    (compiled : revision.word.body ≠ nativeSentinel) (rest : List StoredRevision) :
    prunedHistory (revision :: rest) =
      ⟨prunedWord revision.word, revision.redefined⟩ :: prunedHistory rest := by
  obtain ⟨word, redefined⟩ := revision
  rw [prunedHistory, if_neg compiled]

/-! ## Stored words -/

@[simp]
theorem ofWord_name (w : Word) : (ofWord w).name = w.name := by
  cases w
  rfl

@[simp]
theorem ofWord_body (w : Word) : (ofWord w).body = bodyText w.body := by
  cases w
  rfl

@[simp]
theorem ofWord_history (w : Word) : (ofWord w).history = ofHistory w.history := by
  cases w
  rfl

/-- A word that is not stored as native is compiled. -/
theorem exists_tokens_of_ofWord {w : Word} (compiled : (ofWord w).body ≠ nativeSentinel) :
    ∃ tokens, w.body = .compiled tokens := by
  rw [ofWord_body] at compiled
  cases body : w.body with
  | native native =>
      rw [body] at compiled
      exact (compiled rfl).elim
  | compiled tokens => exact ⟨tokens, rfl⟩

/-- A saved word is left out of a restore exactly if it is native. -/
theorem readWord_ofWord_eq_none_iff {d : Dictionary} {w : Word} :
    readWord d (ofWord w) = .ok none ↔ ∃ native, w.body = .native native := by
  constructor
  · intro left_out
    cases body : w.body with
    | native native => exact ⟨native, rfl⟩
    | compiled tokens =>
        have compiled : (ofWord w).body ≠ nativeSentinel := by
          rw [ofWord_body, body]
          exact bodyText_compiled_ne tokens
        obtain ⟨_, _, p, _, none⟩ := (readWord_ok_iff compiled).mp left_out
        cases none
  · rintro ⟨native, body⟩
    refine readWord_of_native ?_
    rw [ofWord_body, body]
    rfl

/-- **Bodies survive their text.** The text of any tokens is not the native sentinel and is
read as the same tokens, whatever characters they have. So different tokens have different
texts, and a saved word is taken for a native one only if it is native. -/
theorem readBody_bodyText :
    (∀ tokens, bodyText (.compiled tokens) ≠ nativeSentinel ∧
        ∀ name, readBody name (bodyText (.compiled tokens)) = .ok (some (.compiled tokens))) ∧
      (Function.Injective fun tokens => bodyText (.compiled tokens)) ∧
      ∀ (d : Dictionary) (w : Word),
        readWord d (ofWord w) = .ok none ↔ ∃ native, w.body = .native native := by
  refine ⟨fun tokens => ⟨bodyText_compiled_ne tokens, fun name => ?_⟩,
    bodyText_compiled_injective, fun _ _ => readWord_ofWord_eq_none_iff⟩
  rw [readBody_eq, if_neg (bodyText_compiled_ne tokens), bodyTokens?_bodyText]

theorem ofHistory_cons (revision : Revision) (rest : List Revision) :
    ofHistory (revision :: rest) =
      ⟨ofWord revision.word, revision.redefined⟩ :: ofHistory rest := by
  cases revision
  rw [ofHistory]

/-- A history is stored version by version. -/
theorem ofHistory_eq_map (history : List Revision) :
    ofHistory history =
      history.map fun revision => ⟨ofWord revision.word, revision.redefined⟩ := by
  induction history with
  | nil => rw [ofHistory, List.map_nil]
  | cons revision rest ih => rw [ofHistory_cons, ih, List.map_cons]

/-- A word that is read from a stored one with its own tokens is stored again as it was,
but for its history. -/
theorem ofWord_wordRead (w : StoredWord) (tokens : List String) (history : List Revision)
    (body : bodyText (.compiled tokens) = w.body) :
    ofWord (wordRead w tokens history) = { w with history := ofHistory history } := by
  simp [ofWord, wordRead, body]

mutual

theorem decodes_ofHistory_word : (w : Word) →
    ∃ read, Decodes (ofHistory w.history) read ∧
      ofHistory read = prunedHistory (ofHistory w.history)
  | ⟨_, _, _, _, _, _, _, _, _, history⟩ => decodes_ofHistory history

/-- A stored history stands for versions that are stored again as the history without its
native versions. -/
theorem decodes_ofHistory : (history : List Revision) →
    ∃ read, Decodes (ofHistory history) read ∧
      ofHistory read = prunedHistory (ofHistory history)
  | [] => ⟨[], .nil, by rw [ofHistory, prunedHistory]⟩
  | ⟨word, redefined⟩ :: rest => by
      obtain ⟨later, later_decodes, later_stored⟩ := decodes_ofHistory rest
      obtain ⟨below, below_decodes, below_stored⟩ := decodes_ofHistory_word word
      rw [ofHistory_cons]
      cases body : word.body with
      | native native =>
          have is_native : (ofWord word).body = nativeSentinel := by
            rw [ofWord_body, body]
            rfl
          refine ⟨later, .native is_native later_decodes, ?_⟩
          rw [prunedHistory_of_native is_native, later_stored]
      | compiled tokens =>
          have stored_body : (ofWord word).body = bodyText (.compiled tokens) := by
            rw [ofWord_body, body]
          have compiled : (ofWord word).body ≠ nativeSentinel :=
            stored_body ▸ bodyText_compiled_ne tokens
          refine ⟨_, .compiled compiled (stored_body ▸ bodyTokens?_bodyText tokens)
            (ofWord_history word ▸ below_decodes) later_decodes, ?_⟩
          rw [prunedHistory_of_compiled compiled, ofHistory_cons, ofWord_wordRead _ _ _
            stored_body.symm, prunedWord_eq, ofWord_history, below_stored, later_stored]

end

/-- A stored history stands for one history only. -/
theorem Decodes.unique {stored : List StoredRevision} {first second : List Revision}
    (decodes : Decodes stored first) (decodes' : Decodes stored second) : first = second := by
  have read := (readHistory_ok_iff stored).mpr decodes
  rw [(readHistory_ok_iff stored).mpr decodes'] at read
  exact (Except.ok.inj read).symm

/-- The word that a saved word's definition makes is stored again as it was, without native
versions. -/
theorem ofWord_toWord_of_defines {w : Word} {p : String × Definition}
    (compiled : (ofWord w).body ≠ nativeSentinel) (defines : Defines (ofWord w) p)
    (now : Instant) :
    ofWord (p.2.toWord p.1 now) = prunedWord (ofWord w) ∧
      (p.2.toWord p.1 now).category = .user := by
  obtain ⟨tokens, history, body, decodes, rfl⟩ := defines
  refine ⟨?_, rfl⟩
  have stored_body : bodyText (.compiled tokens) = (ofWord w).body := by
    obtain ⟨own, own_body⟩ := exists_tokens_of_ofWord compiled
    rw [ofWord_body, own_body] at body ⊢
    rw [bodyTokens?_bodyText] at body
    rw [Option.some.inj body]
  obtain ⟨read, read_decodes, read_stored⟩ := decodes_ofHistory w.history
  rw [ofWord_history] at decodes
  cases decodes.unique read_decodes
  have made := ofWord_wordRead (ofWord w) tokens history stored_body
  rw [read_stored] at made
  rw [prunedWord_eq, ofWord_history]
  exact made

/-- The words that the definitions of saved words make are stored again as they were,
without native versions. -/
theorem map_ofWord_of_defines {stored : List StoredWord} {definitions : List (String × Definition)}
    (saved : ∀ w ∈ stored, w.body ≠ nativeSentinel ∧ ∃ word, w = ofWord word)
    (defined : List.Forall₂ Defines stored definitions) (now : Instant) :
    (definitions.map fun p => ofWord (p.2.toWord p.1 now)) = stored.map prunedWord ∧
      ∀ p ∈ definitions, (p.2.toWord p.1 now).category = .user := by
  induction defined with
  | nil => simp
  | cons defines _ ih =>
      rw [List.forall_mem_cons] at saved
      obtain ⟨⟨compiled, word, rfl⟩, others⟩ := saved
      obtain ⟨again, user⟩ := ofWord_toWord_of_defines compiled defines now
      obtain ⟨others_again, others_user⟩ := ih others
      rw [List.map_cons, List.map_cons, List.forall_mem_cons, again, others_again]
      exact ⟨rfl, user, others_user⟩

end Snapshot

namespace Machine

open Snapshot

/-- A bootstrap installs library words alone: in a machine without words it leaves words
of the categories `CORE` and `STANDARD` and keeps the configuration. -/
structure InstallsLibrary (install : Machine → Outcome) : Prop where
  config : ∀ config clock, (install (.ofConfig config clock)).machine.config = config
  categories : ∀ config clock,
    ∀ w ∈ (install (.ofConfig config clock)).machine.dictionary.words, w.category ≠ .user

theorem exists_ok_of_isOk {α : Type} {result : Except Error α} (succeeded : result.isOk = true) :
    ∃ value, result = .ok value := by
  cases result with
  | error error => cases succeeded
  | ok value => exact ⟨value, rfl⟩

/-- A machine is made from a snapshot if the installation and the restore both succeed. -/
theorem ofSnapshot_ok_iff {clock : Instant} {install : Machine → Outcome} {s : Snapshot}
    {m : Machine} :
    ofSnapshot clock install s = .ok m ↔
      (install (.ofConfig s.config clock)).error = none ∧
        ((install (.ofConfig s.config clock)).machine.restore s).error = none ∧
        m = ((install (.ofConfig s.config clock)).machine.restore s).machine := by
  unfold ofSnapshot
  cases installed : (install (.ofConfig s.config clock)).error with
  | some error => simp [installed]
  | none =>
      cases restored : ((install (.ofConfig s.config clock)).machine.restore s).error with
      | some error => simp [installed, restored]
      | none => simp [installed, restored, eq_comm]

/-- The compiled words of a saved machine have distinct names. -/
theorem nodup_compiledWords_save {m : Machine} (named : m.dictionary.WellNamed) :
    ((compiledWords m.save.dictionary).map StoredWord.name).Nodup := by
  have names : (m.save.dictionary.map StoredWord.name).Sublist m.dictionary.names := by
    have same : m.save.dictionary.map StoredWord.name =
        (m.dictionary.words.filter fun w => w.category == .user).map Word.name := by
      simp [save, Function.comp_def]
    rw [same]
    exact List.filter_sublist.map _
  exact named.distinct.sublist ((List.filter_sublist.map _).trans names)

/-- The bounds that a snapshot of a machine gives are stored again as they were. -/
theorem save_bounds_of_config {m restored : Machine} (config : restored.config = m.save.config) :
    restored.save.stackDepth = m.save.stackDepth ∧
      restored.save.returnStackDepth = m.save.returnStackDepth := by
  simp only [save, config, Snapshot.config, Option.map_some, Option.getD_some,
    UInt64.ofNat_toNat, and_self]

/-- A machine that is made from a saved one beside words that are not a user's, and that
the saved words do not replace, saves the snapshot without its native parts. -/
theorem save_afterRestore {m installed : Machine} (named : m.dictionary.WellNamed)
    (config : installed.config = m.save.config)
    (categories : ∀ w ∈ installed.dictionary.words, w.category ≠ .user)
    {definitions : List (String × Definition)}
    (defined : List.Forall₂ Defines (compiledWords m.save.dictionary) definitions)
    (fresh : ∀ p ∈ definitions, p.1 ∉ installed.dictionary.names) :
    (installed.afterRestore m.save.stack definitions).save =
      { m.save.pruned with timestamp := installed.clock } := by
  have distinct : (definitions.map Prod.fst).Nodup :=
    names_of_defines defined ▸ nodup_compiledWords_save named
  have words := Dictionary.words_afterDefines_of_fresh installed.dictionary installed.clock
    definitions distinct fresh
  have saved : ∀ w ∈ compiledWords m.save.dictionary,
      w.body ≠ nativeSentinel ∧ ∃ word, w = ofWord word := by
    intro w member
    obtain ⟨stored, compiled⟩ := List.mem_filter.mp member
    obtain ⟨word, _, rfl⟩ := List.mem_map.mp stored
    exact ⟨of_decide_eq_true compiled, word, rfl⟩
  obtain ⟨again, user⟩ := map_ofWord_of_defines saved defined installed.clock
  have library : (installed.dictionary.words.filter fun w => w.category == .user) = [] :=
    List.filter_eq_nil_iff.mpr fun w member => by simpa using categories w member
  have restored : ((definitions.map fun p => p.2.toWord p.1 installed.clock).filter
      fun w => w.category == .user) = definitions.map fun p => p.2.toWord p.1 installed.clock := by
    refine List.filter_eq_self.mpr fun w member => ?_
    obtain ⟨p, present, rfl⟩ := List.mem_map.mp member
    simpa using user p present
  have dictionary : (installed.afterRestore m.save.stack definitions).save.dictionary =
      m.save.pruned.dictionary := by
    simp only [save, afterRestore, words, List.filter_append, library, restored, List.nil_append,
      List.map_map, Function.comp_def]
    exact again
  have stack : (installed.afterRestore m.save.stack definitions).save.stack = m.save.stack :=
    List.reverse_reverse _
  obtain ⟨depth, returns⟩ := @save_bounds_of_config m
    (installed.afterRestore m.save.stack definitions) config
  exact Eq.mpr (Snapshot.mk.injEq ..) ⟨rfl, rfl, stack, dictionary, depth, returns⟩

/-- An installed word is in the way of a snapshot if a stored word with a body of its own
has its name and the restore may replace it. -/
def InTheWay (s : Snapshot) (w : Word) : Prop :=
  w.isProtected = false ∧ w.name ∈ (compiledWords s.dictionary).map StoredWord.name

/-- The names that a restore checked are new if no installed word is in the way. -/
theorem fresh_of_readWords {installed : Machine} {s : Snapshot}
    {definitions : List (String × Definition)}
    (read : readWords installed.dictionary s.dictionary = .ok definitions)
    (clear : ∀ w ∈ installed.dictionary.words, ¬InTheWay s w) :
    ∀ p ∈ definitions, p.1 ∉ installed.dictionary.names := by
  obtain ⟨checked, defined⟩ := readWords_ok_iff.mp read
  intro p member known
  have stored : p.1 ∈ (compiledWords s.dictionary).map StoredWord.name :=
    names_of_defines defined ▸ List.mem_map_of_mem member
  obtain ⟨w, found⟩ := Option.isSome_iff_exists.mp (Dictionary.find?_isSome_iff.mpr known)
  have named := Dictionary.name_of_find? found
  obtain ⟨entry, present, same⟩ := List.mem_map.mp stored
  have unprotected := (checked entry present).2
  rw [same, Dictionary.protects, found] at unprotected
  exact clear w (Dictionary.mem_of_find? found) ⟨unprotected, named ▸ stored⟩

/-- A machine that is made from a saved one beside a library that is not in the way saves
the snapshot without its native parts. -/
theorem save_eq_pruned {m restored : Machine} (named : m.dictionary.WellNamed) {clock : Instant}
    {install : Machine → Outcome} (library : InstallsLibrary install)
    (clear : ∀ w ∈ (install (.ofConfig m.save.config clock)).machine.dictionary.words,
      ¬InTheWay m.save w)
    (made : ofSnapshot clock install m.save = .ok restored) :
    restored.save = { m.save.pruned with timestamp := restored.clock } := by
  obtain ⟨_, succeeded, rfl⟩ := ofSnapshot_ok_iff.mp made
  obtain ⟨error, failed⟩ | ⟨definitions, _, _, read, restored⟩ := restore_cases
    (install (.ofConfig m.save.config clock)).machine m.save
  · rw [failed] at succeeded
    cases succeeded
  · rw [restored]
    exact save_afterRestore named (library.config _ _) (library.categories _ _)
      (readWords_ok_iff.mp read).2 (fresh_of_readWords read clear)

/-- The full library installs library words only. -/
theorem isLibrary_of_install_full {identity : Nat} {config : Config} {clock : Instant} {w : Word}
    (member : w ∈ (Library.install identity Library.full
      (.ofConfig config clock)).machine.dictionary.words) : Library.IsLibrary w := by
  rw [Library.install_full, done, Library.words_bootstrapped] at member
  exact Library.isLibrary_of_mem_installed member

/-- The full library is one of the bootstraps in question. -/
theorem installsLibrary_full (identity : Nat) :
    InstallsLibrary (Library.install identity Library.full) where
  config config clock := by
    rw [Library.install_full]
    rfl
  categories _ _ _ member := (isLibrary_of_install_full member).category

/-- The definition of one library word is a bootstrap. -/
theorem installsLibrary_define (name : String) {definition : Definition}
    (apart : definition.category ≠ .user) : InstallsLibrary fun m => m.define name definition where
  config config clock := by
    unfold define
    split <;> rfl
  categories config clock w member := by
    by_cases empty : name = ""
    · rw [define, Dictionary.define, if_pos empty] at member
      cases member
    · rw [define, Dictionary.define, if_neg empty] at member
      cases List.mem_singleton.mp member
      exact apart

/-- **Saving undoes restoring.** A machine that is made from a saved one beside the whole
library, or beside any library words that are not in the way, saves the snapshot without
its native parts, at its own time. -/
theorem save_ofSnapshot {config : Config} {m : Machine} (reachable : Reachable config m)
    (clock : Instant) :
    (∀ identity restored,
        ofSnapshot clock (Library.install identity Library.full) m.save = .ok restored →
          restored.save = { m.save.pruned with timestamp := restored.clock }) ∧
      ∀ install, InstallsLibrary install →
        (∀ w ∈ (install (.ofConfig m.save.config clock)).machine.dictionary.words,
          ¬InTheWay m.save w) →
        ∀ restored, ofSnapshot clock install m.save = .ok restored →
          restored.save = { m.save.pruned with timestamp := restored.clock } := by
  refine ⟨fun identity restored made => ?_, fun install library clear restored made => ?_⟩
  · refine save_eq_pruned reachable.wellNamed (installsLibrary_full identity) ?_ made
    rintro w member ⟨unprotected, _⟩
    rw [(isLibrary_of_install_full member).isProtected] at unprotected
    cases unprotected
  · exact save_eq_pruned reachable.wellNamed library clear made

/-- A native word and a native version of another word are left out, beside the whole
library and beside one unprotected word of it. -/
theorem save_ofSnapshot_of_native :
    let native : Definition := { body := .native ⟨0, .host .noop⟩ }
    let versions : List Revision := [⟨native.toWord "X" .millennium, .millennium⟩]
    let m := (((ofConfig .default .millennium).define "N" native).machine.define "X"
      { body := .compiled ["1"], metadata := some ⟨.millennium, 2, none, versions⟩ }).machine
    let install := fun m : Machine => m.define "Y" { category := .standard }
    (∃ restored, ofSnapshot .millennium (Library.install 0 Library.full) m.save = .ok restored ∧
        restored.save = { m.save.pruned with timestamp := restored.clock }) ∧
      ∃ restored, ofSnapshot .millennium install m.save = .ok restored ∧
        restored.save = { m.save.pruned with timestamp := restored.clock } := by
  intro native versions m install
  have reachable : Reachable .default m :=
    .step (.define "X" _) (.step (.define "N" native) (.initial .millennium) rfl) rfl
  obtain ⟨beside_full, beside_other⟩ := save_ofSnapshot reachable .millennium
  constructor
  · obtain ⟨restored, made⟩ : ∃ restored,
        ofSnapshot .millennium (Library.install 0 Library.full) m.save = .ok restored :=
      exists_ok_of_isOk (by decide +kernel)
    exact ⟨restored, made, beside_full 0 restored made⟩
  · obtain ⟨restored, made⟩ : ∃ restored, ofSnapshot .millennium install m.save = .ok restored :=
      exists_ok_of_isOk (by decide +kernel)
    refine ⟨restored, made, beside_other install (installsLibrary_define _ nofun) ?_ restored made⟩
    intro w member in_the_way
    cases List.mem_singleton.mp member
    exact absurd in_the_way.2 (by decide +kernel)

/-- A user's word that an unprotected library word shares its name with comes back with
that library word in its history. -/
theorem save_ofSnapshot_ne_of_unprotected :
    let m := ((ofConfig .default .millennium).define "X" (.ofTokens ["1"])).machine
    let install := fun m : Machine => m.define "X" { category := .standard }
    Reachable .default m ∧ InstallsLibrary install ∧
      ∃ restored, ofSnapshot .millennium install m.save = .ok restored ∧
        restored.save ≠ { m.save.pruned with timestamp := restored.clock } := by
  intro m install
  obtain ⟨restored, made⟩ : ∃ restored, ofSnapshot .millennium install m.save = .ok restored :=
    exists_ok_of_isOk (by decide +kernel)
  refine ⟨.step (.define "X" (.ofTokens ["1"])) (.initial .millennium) rfl,
    installsLibrary_define _ nofun, restored, made, fun same => ?_⟩
  have lengths : (ofSnapshot .millennium install m.save).toOption.map
      (fun r => r.save.dictionary.map fun w => w.history.length) = some [1] := by
    decide +kernel
  rw [made] at lengths
  simp only [Except.toOption, Option.map_some, same] at lengths
  exact absurd lengths (by decide +kernel)

end Machine

end WordMachine
