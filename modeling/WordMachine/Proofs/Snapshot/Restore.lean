import Mathlib.Data.List.Forall2
import WordMachine.Proofs.Dictionary
import WordMachine.Proofs.Stack
import WordMachine.Snapshot.Restore

/-! # What a restore checks and what it does

A restore reads every stored word before it touches the machine. The conditions under
which reading succeeds are stated here without the reader: bodies have to be token
lists, down to every superseded version that no native version hides. They imply that
the pushes and definitions that follow cannot fail, so a restore changes the machine as
a whole or not at all.
-/

namespace WordMachine

namespace Snapshot

/-! ## Bodies -/

/-- The tokens that a stored body writes. -/
def bodyTokens? (body : String) : Option (List String) :=
  (Json.read? body).bind (Json.list? Json.text?)

/-- Reading a body gives nothing for the sentinel and otherwise its tokens, if it writes
some. -/
theorem readBody_eq (name body : String) :
    readBody name body =
      if body = nativeSentinel then .ok none
      else
        match bodyTokens? body with
        | some tokens => .ok (some (.compiled tokens))
        | none => .error (.corruptBody name) := rfl

/-! ## Histories -/

/-- A version is exposed in a history if it stands in it, or in the history of an exposed
version that is not native. What lies below a native version is hidden. -/
inductive Exposed : List StoredRevision → StoredRevision → Prop where
  | here {history : List StoredRevision} {revision : StoredRevision} :
      revision ∈ history → Exposed history revision
  | inside {history : List StoredRevision} {revision inner : StoredRevision} :
      revision ∈ history → revision.word.body ≠ nativeSentinel →
        Exposed revision.word.history inner → Exposed history inner

/-- A history is readable if every exposed version is native or writes tokens. -/
def HistoryReadable (history : List StoredRevision) : Prop :=
  ∀ revision, Exposed history revision →
    revision.word.body = nativeSentinel ∨ (bodyTokens? revision.word.body).isSome = true

theorem historyReadable_nil : HistoryReadable [] := by
  intro revision exposed
  cases exposed with
  | here member => cases member
  | inside member => cases member

/-- A history is readable if its first version is native or readable all the way down and
the other versions are readable. -/
theorem historyReadable_cons {revision : StoredRevision} {rest : List StoredRevision} :
    HistoryReadable (revision :: rest) ↔
      (revision.word.body = nativeSentinel ∨
          (bodyTokens? revision.word.body).isSome = true ∧
            HistoryReadable revision.word.history) ∧
        HistoryReadable rest := by
  constructor
  · intro readable
    refine ⟨?_, fun inner exposed => readable inner ?_⟩
    · rcases readable revision (.here List.mem_cons_self) with native | tokens
      · exact .inl native
      · by_cases native : revision.word.body = nativeSentinel
        · exact .inl native
        · exact .inr ⟨tokens, fun inner exposed =>
            readable inner (.inside List.mem_cons_self native exposed)⟩
    · cases exposed with
      | here member => exact .here (List.mem_cons_of_mem _ member)
      | inside member compiled exposed =>
          exact .inside (List.mem_cons_of_mem _ member) compiled exposed
  · rintro ⟨first, later⟩ inner exposed
    cases exposed with
    | here member =>
        rcases List.mem_cons.mp member with rfl | member
        · exact first.imp_right And.left
        · exact later inner (.here member)
    | inside member compiled exposed =>
        rcases List.mem_cons.mp member with rfl | member
        · exact (first.resolve_left compiled).2 inner exposed
        · exact later inner (.inside member compiled exposed)

/-- The word that a stored word with given tokens and a given history is read as. -/
def wordRead (w : StoredWord) (tokens : List String) (history : List Revision) : Word :=
  { name := w.name
    effect := w.effect
    body := .compiled tokens
    immediate := w.immediate
    isProtected := false
    category := .user
    defined := w.defined
    usage := w.usage
    documentation := w.documentation
    history }

/-- A stored history stands for the versions in it that are not native, each with what
its own history stands for. -/
inductive Decodes : List StoredRevision → List Revision → Prop where
  | nil : Decodes [] []
  | native {revision : StoredRevision} {rest : List StoredRevision} {revisions : List Revision} :
      revision.word.body = nativeSentinel → Decodes rest revisions →
        Decodes (revision :: rest) revisions
  | compiled {revision : StoredRevision} {rest : List StoredRevision} {tokens : List String}
      {history revisions : List Revision} :
      revision.word.body ≠ nativeSentinel → bodyTokens? revision.word.body = some tokens →
        Decodes revision.word.history history → Decodes rest revisions →
        Decodes (revision :: rest)
          (⟨wordRead revision.word tokens history, revision.redefined⟩ :: revisions)

theorem readMetadata_ok_iff {w : StoredWord} {metadata : Metadata} :
    readMetadata w = .ok metadata ↔
      ∃ history, readHistory w.history = .ok history ∧
        metadata = ⟨w.defined, w.usage, w.documentation, history⟩ := by
  obtain ⟨name, effect, body, immediate, defined, usage, history, documentation⟩ := w
  rw [readMetadata]
  cases readHistory history with
  | error error => simp
  | ok revisions => simp [eq_comm]

theorem readHistory_ne_ok {w : StoredWord} {error : Error} (failed : readMetadata w = .error error)
    (history : List Revision) : readHistory w.history ≠ .ok history := by
  intro read
  have records := readMetadata_ok_iff.mpr ⟨history, read, rfl⟩
  rw [failed] at records
  cases records

theorem readHistory_cons_of_native {revision : StoredRevision}
    (native : revision.word.body = nativeSentinel) (rest : List StoredRevision) :
    readHistory (revision :: rest) = readHistory rest := by
  obtain ⟨word, redefined⟩ := revision
  rw [readHistory, readBody_eq, if_pos native]

/-- A version with a body of its own is read together with its history. -/
theorem readHistory_cons_ok_iff {revision : StoredRevision}
    (compiled : revision.word.body ≠ nativeSentinel) {rest : List StoredRevision}
    {revisions : List Revision} :
    readHistory (revision :: rest) = .ok revisions ↔
      ∃ tokens history later, bodyTokens? revision.word.body = some tokens ∧
        readHistory revision.word.history = .ok history ∧ readHistory rest = .ok later ∧
        revisions = ⟨wordRead revision.word tokens history, revision.redefined⟩ :: later := by
  obtain ⟨word, redefined⟩ := revision
  rw [readHistory, readBody_eq, if_neg compiled]
  cases bodyTokens? word.body with
  | none => simp
  | some tokens =>
      cases records : readMetadata word with
      | error error => simp [readHistory_ne_ok records]
      | ok metadata =>
          obtain ⟨history, read, rfl⟩ := readMetadata_ok_iff.mp records
          cases readHistory rest with
          | error error => simp
          | ok later => simp [read, wordRead, eq_comm]

mutual

theorem readHistory_word_ok_iff : (w : StoredWord) → {history : List Revision} →
    (readHistory w.history = .ok history ↔ Decodes w.history history)
  | ⟨_, _, _, _, _, _, stored, _⟩, _ => readHistory_ok_iff stored

/-- Reading a history gives the versions that it stands for. -/
theorem readHistory_ok_iff : (stored : List StoredRevision) → {revisions : List Revision} →
    (readHistory stored = .ok revisions ↔ Decodes stored revisions)
  | [], revisions => by
      rw [readHistory]
      constructor
      · rintro ⟨⟩
        exact .nil
      · intro decodes
        cases decodes with
        | nil => rfl
  | ⟨word, redefined⟩ :: rest, revisions => by
      by_cases native : word.body = nativeSentinel
      · rw [readHistory_cons_of_native native, readHistory_ok_iff rest]
        constructor
        · exact .native native
        · intro decodes
          cases decodes with
          | native _ later => exact later
          | compiled compiled => exact (compiled native).elim
      · rw [@readHistory_cons_ok_iff ⟨word, redefined⟩ native]
        constructor
        · rintro ⟨tokens, history, later, body, below, read, rfl⟩
          exact .compiled native body ((readHistory_word_ok_iff word).mp below)
            ((readHistory_ok_iff rest).mp read)
        · intro decodes
          cases decodes with
          | native is_native => exact (native is_native).elim
          | compiled _ body below later =>
              exact ⟨_, _, _, body, (readHistory_word_ok_iff word).mpr below,
                (readHistory_ok_iff rest).mpr later, rfl⟩

end

mutual

theorem exists_decodes_word_iff : (w : StoredWord) →
    ((∃ history, Decodes w.history history) ↔ HistoryReadable w.history)
  | ⟨_, _, _, _, _, _, stored, _⟩ => exists_decodes_iff stored

/-- A stored history stands for versions exactly if it is readable. -/
theorem exists_decodes_iff : (stored : List StoredRevision) →
    ((∃ revisions, Decodes stored revisions) ↔ HistoryReadable stored)
  | [] => iff_of_true ⟨[], .nil⟩ historyReadable_nil
  | ⟨word, redefined⟩ :: rest => by
      rw [historyReadable_cons, ← exists_decodes_word_iff word, ← exists_decodes_iff rest,
        Option.isSome_iff_exists]
      constructor
      · rintro ⟨revisions, decodes⟩
        cases decodes with
        | native native later => exact ⟨.inl native, _, later⟩
        | compiled _ body below later => exact ⟨.inr ⟨⟨_, body⟩, _, below⟩, _, later⟩
      · rintro ⟨first, revisions, later⟩
        by_cases native : word.body = nativeSentinel
        · exact ⟨revisions, .native native later⟩
        · obtain ⟨⟨tokens, body⟩, history, below⟩ := first.resolve_left native
          exact ⟨_, .compiled native body below later⟩

end

/-! ## Words -/

/-- The stored words that have a body of their own. -/
def compiledWords (words : List StoredWord) : List StoredWord :=
  words.filter fun w => w.body ≠ nativeSentinel

/-- What a stored word with a body of its own needs to be restored beside the words of a
dictionary. -/
structure Restorable (d : Dictionary) (w : StoredWord) : Prop where
  body : (bodyTokens? w.body).isSome = true
  name : w.name ≠ ""
  unprotected : d.protects w.name = false
  history : HistoryReadable w.history

/-- A stored word stands for a definition: its name, effect, flag and tokens with its
records. -/
def Defines (w : StoredWord) (p : String × Definition) : Prop :=
  ∃ tokens history, bodyTokens? w.body = some tokens ∧ Decodes w.history history ∧
    p = (w.name,
      { effect := some w.effect
        body := .compiled tokens
        immediate := w.immediate
        metadata := some ⟨w.defined, w.usage, w.documentation, history⟩ })

theorem Defines.name {w : StoredWord} {p : String × Definition} (defines : Defines w p) :
    p.1 = w.name := by
  obtain ⟨tokens, history, _, _, rfl⟩ := defines
  rfl

theorem Defines.isProtected {w : StoredWord} {p : String × Definition} (defines : Defines w p) :
    p.2.isProtected = false := by
  obtain ⟨tokens, history, _, _, rfl⟩ := defines
  rfl

/-- A stored word stands for a definition exactly if its body and its history can be
read. -/
theorem exists_defines_iff {w : StoredWord} :
    (∃ p, Defines w p) ↔ (bodyTokens? w.body).isSome = true ∧ HistoryReadable w.history := by
  rw [← exists_decodes_iff, Option.isSome_iff_exists]
  constructor
  · rintro ⟨_, tokens, history, body, decodes, rfl⟩
    exact ⟨⟨tokens, body⟩, history, decodes⟩
  · rintro ⟨⟨tokens, body⟩, history, decodes⟩
    exact ⟨_, tokens, history, body, decodes, rfl⟩

theorem readWord_of_native {d : Dictionary} {w : StoredWord} (native : w.body = nativeSentinel) :
    readWord d w = .ok none := by
  rw [readWord, readBody_eq, if_pos native]

/-- A word with a body of its own is read if its name is free and it stands for a
definition. -/
theorem readWord_ok_iff {d : Dictionary} {w : StoredWord} (compiled : w.body ≠ nativeSentinel)
    {result : Option (String × Definition)} :
    readWord d w = .ok result ↔
      w.name ≠ "" ∧ d.protects w.name = false ∧ ∃ p, Defines w p ∧ result = some p := by
  rw [readWord, readBody_eq, if_neg compiled]
  unfold Defines
  cases bodyTokens? w.body with
  | none => simp
  | some tokens =>
      by_cases empty : w.name = ""
      · simp [empty]
      · cases guarded : d.protects w.name with
        | true =>
            rw [Dictionary.protects] at guarded
            simp [empty, guarded]
        | false =>
            rw [Dictionary.protects] at guarded
            simp only [← readHistory_ok_iff]
            cases records : readMetadata w with
            | error error => simp [empty, guarded, readHistory_ne_ok records]
            | ok metadata =>
                obtain ⟨history, read, rfl⟩ := readMetadata_ok_iff.mp records
                simp [empty, guarded, read, eq_comm]

/-- Stored words are read if every one with a body of its own is; they give the
definitions that these stand for. -/
theorem readWords_ok_iff {d : Dictionary} {words : List StoredWord}
    {definitions : List (String × Definition)} :
    readWords d words = .ok definitions ↔
      (∀ w ∈ compiledWords words, w.name ≠ "" ∧ d.protects w.name = false) ∧
        List.Forall₂ Defines (compiledWords words) definitions := by
  induction words generalizing definitions with
  | nil => cases definitions <;> simp [readWords, compiledWords]
  | cons w rest ih =>
      by_cases native : w.body = nativeSentinel
      · have skipped : compiledWords (w :: rest) = compiledWords rest := by
          simp [compiledWords, native]
        rw [skipped, ← ih, readWords, readWord_of_native native]
        cases readWords d rest with
        | error error => simp
        | ok later => simp
      · have kept : compiledWords (w :: rest) = w :: compiledWords rest := by
          simp [compiledWords, native]
        rw [kept, List.forall_mem_cons, List.forall₂_cons_left_iff, readWords]
        constructor
        · intro read
          cases first : readWord d w with
          | error error => simp [first] at read
          | ok result =>
              obtain ⟨nonempty, free, p, defines, rfl⟩ := (readWord_ok_iff native).mp first
              cases later : readWords d rest with
              | error error => simp [first, later] at read
              | ok others =>
                  obtain ⟨checked, others_defined⟩ := ih.mp later
                  simp only [first, later, Option.toList_some, List.singleton_append,
                    Except.ok.injEq] at read
                  exact ⟨⟨⟨nonempty, free⟩, checked⟩, p, others, defines, others_defined, read.symm⟩
        · rintro ⟨⟨⟨nonempty, free⟩, checked⟩, p, others, defines, others_defined, rfl⟩
          have first := (readWord_ok_iff native).mpr ⟨nonempty, free, p, defines, rfl⟩
          have later := ih.mpr ⟨checked, others_defined⟩
          simp only [first, later, Option.toList_some, List.singleton_append]

/-- Stored words can be read exactly if every one with a body of its own is restorable. -/
theorem readWords_isOk_iff {d : Dictionary} {words : List StoredWord} :
    (∃ definitions, readWords d words = .ok definitions) ↔
      ∀ w ∈ compiledWords words, Restorable d w := by
  simp only [readWords_ok_iff, exists_and_left]
  constructor
  · rintro ⟨checked, definitions, defined⟩ w member
    obtain ⟨index, below, rfl⟩ := List.mem_iff_getElem.mp member
    have defines := List.Forall₂.get defined below (defined.length_eq ▸ below)
    obtain ⟨body, history⟩ := exists_defines_iff.mp ⟨_, defines⟩
    exact ⟨body, (checked _ member).1, (checked _ member).2, history⟩
  · intro restorable
    refine ⟨fun w member => ⟨(restorable w member).name, (restorable w member).unprotected⟩, ?_⟩
    generalize compiledWords words = compiled at restorable
    induction compiled with
    | nil => exact ⟨[], .nil⟩
    | cons w rest ih =>
        have first := restorable w List.mem_cons_self
        obtain ⟨p, defines⟩ := exists_defines_iff.mpr ⟨first.body, first.history⟩
        obtain ⟨others, defined⟩ := ih fun w member => restorable w (List.mem_cons_of_mem _ member)
        exact ⟨p :: others, .cons defines defined⟩

theorem names_of_defines {words : List StoredWord} {definitions : List (String × Definition)}
    (defined : List.Forall₂ Defines words definitions) :
    definitions.map Prod.fst = words.map StoredWord.name := by
  induction defined with
  | nil => rfl
  | cons defines _ ih => rw [List.map_cons, List.map_cons, ih, defines.name]

theorem isProtected_of_defines {words : List StoredWord}
    {definitions : List (String × Definition)} (defined : List.Forall₂ Defines words definitions) :
    ∀ p ∈ definitions, p.2.isProtected = false := by
  induction defined with
  | nil => simp
  | cons defines _ ih => simpa [defines.isProtected] using ih

end Snapshot

namespace Machine

open Snapshot

/-- Definitions of unprotected words under names that are free succeed one after the
other: none of them can protect a later one's name. -/
theorem defineAll_eq (m : Machine) (definitions : List (String × Definition))
    (named : ∀ p ∈ definitions, p.1 ≠ "")
    (free : ∀ p ∈ definitions, m.dictionary.protects p.1 = false)
    (open_words : ∀ p ∈ definitions, p.2.isProtected = false) :
    m.defineAll definitions =
      { m with dictionary := m.dictionary.afterDefines m.clock definitions }.done := by
  induction definitions generalizing m with
  | nil => rfl
  | cons p rest ih =>
      obtain ⟨name, definition⟩ := p
      rw [List.forall_mem_cons] at named free open_words
      have defined : m.dictionary.define m.clock name definition =
          .ok (m.dictionary.afterDefine m.clock name definition) :=
        Dictionary.define_ok_iff.mpr ⟨named.1, free.1, rfl⟩
      simp only [defineAll, defined]
      apply ih _ named.2 _ open_words.2
      intro q member
      exact Dictionary.protects_afterDefine _ _ _ _ _ open_words.1 (free.2 q member)

/-- The machine that a restore leaves when every check has passed. -/
def afterRestore (m : Machine) (stack : List Value) (definitions : List (String × Definition)) :
    Machine :=
  { m with
    data := { m.data with items := stack.reverse }
    dictionary := m.dictionary.afterDefines m.clock definitions }

/-- No push and no definition that follows the checks of a restore fails. -/
theorem replaceState_eq (m : Machine) (stack : List Value)
    {definitions : List (String × Definition)} {words : List StoredWord}
    (fits : stack.length ≤ m.data.limit)
    (read : readWords m.dictionary words = .ok definitions) :
    m.replaceState stack definitions = (m.afterRestore stack definitions).done := by
  obtain ⟨checked, defined⟩ := readWords_ok_iff.mp read
  have pushed : StackM.pushAll stack m.data.clear =
      .ok () { m.data with items := stack.reverse } := by
    rw [StackM.pushAll_eq _ _ (by simpa [Stack.depth, Stack.clear] using fits)]
    simp [Stack.clear]
  have replaced : { m with data := m.data.clear }.onStack (StackM.pushAll stack) =
      { m with data := { m.data with items := stack.reverse } }.done := by
    simp only [onStack, pushed]
  have checked_names : ∀ p ∈ definitions, p.1 ≠ "" ∧ m.dictionary.protects p.1 = false := by
    intro p member
    have name_member : p.1 ∈ definitions.map Prod.fst := List.mem_map_of_mem member
    rw [names_of_defines defined] at name_member
    obtain ⟨w, stored, same⟩ := List.mem_map.mp name_member
    rw [← same]
    exact checked w stored
  rw [replaceState, replaced]
  exact defineAll_eq _ _ (fun p member => (checked_names p member).1)
    (fun p member => (checked_names p member).2) (isProtected_of_defines defined)

/-- A restore either fails with the machine as it was, or all its checks pass and it
leaves the machine with the new stack and the definitions that were read. -/
theorem restore_cases (m : Machine) (s : Snapshot) :
    (∃ error, m.restore s = m.failed error) ∨
      ∃ definitions, s.version = currentVersion ∧ s.stack.length ≤ m.data.limit ∧
        readWords m.dictionary s.dictionary = .ok definitions ∧
        m.restore s = (m.afterRestore s.stack definitions).done := by
  unfold restore
  by_cases version : s.version = currentVersion
  · by_cases fits : s.stack.length ≤ m.data.limit
    · cases read : readWords m.dictionary s.dictionary with
      | error error => exact .inl ⟨error, by simp [version, Nat.not_lt.mpr fits]⟩
      | ok definitions =>
          refine .inr ⟨definitions, version, fits, rfl, ?_⟩
          rw [← replaceState_eq m s.stack fits read]
          simp [version, Nat.not_lt.mpr fits]
    · exact .inl ⟨_, by rw [if_neg (not_not.mpr version), if_pos (Nat.not_le.mp fits)]⟩
  · exact .inl ⟨_, by rw [if_pos version]⟩

/-- A restore succeeds exactly if the version is the current one, the stack fits and every
stored word with a body of its own is restorable. -/
theorem restore_error_eq_none_iff {m : Machine} {s : Snapshot} :
    (m.restore s).error = none ↔
      s.version = currentVersion ∧ s.stack.length ≤ m.data.limit ∧
        ∀ w ∈ compiledWords s.dictionary, Restorable m.dictionary w := by
  rw [← readWords_isOk_iff]
  constructor
  · intro succeeded
    obtain ⟨error, failed⟩ | ⟨definitions, version, fits, read, _⟩ := restore_cases m s
    · rw [failed] at succeeded
      cases succeeded
    · exact ⟨version, fits, definitions, read⟩
  · rintro ⟨version, fits, definitions, read⟩
    unfold restore
    rw [if_neg (not_not.mpr version), if_neg (Nat.not_lt.mpr fits), read]
    simp only [replaceState_eq m s.stack fits read]
    rfl

/-- The history of a restored word: what its stored history stands for, then the word that
it replaces, cut to the newest versions; a new word keeps its history whole. -/
def restoredHistory (m : Machine) (name : String) (history : List Revision) : List Revision :=
  match m.dictionary.find? name with
  | none => history
  | some old =>
    Dictionary.newest m.dictionary.historyLimit (history ++ [⟨old.withoutHistory, m.clock⟩])

/-- What a machine is after a snapshot was restored into `before`. -/
structure Restored (before : Machine) (s : Snapshot) (after : Machine) : Prop where
  stack : after.data.toList = s.stack
  names : after.dictionary.names = before.dictionary.names ++
    (((compiledWords s.dictionary).map StoredWord.name).filter
      (· ∉ before.dictionary.names)).eraseDups
  unnamed : ∀ name ∉ (compiledWords s.dictionary).map StoredWord.name,
    after.dictionary.find? name = before.dictionary.find? name
  named : ∀ w ∈ compiledWords s.dictionary,
    ((compiledWords s.dictionary).map StoredWord.name).count w.name = 1 →
      ∃ tokens history, bodyTokens? w.body = some tokens ∧ Decodes w.history history ∧
        after.dictionary.find? w.name =
          some (wordRead w tokens (restoredHistory before w.name history))
  limits : after.data.name = before.data.name ∧ after.data.limit = before.data.limit ∧
    after.dictionary.historyLimit = before.dictionary.historyLimit
  others : after = { before with data := after.data, dictionary := after.dictionary }

/-- The word that a stored definition leaves under its name. -/
theorem wordDefined_of_stored (m : Machine) (w : StoredWord) (tokens : List String)
    (history : List Revision) :
    m.dictionary.wordDefined m.clock w.name
        { effect := some w.effect
          body := .compiled tokens
          immediate := w.immediate
          metadata := some ⟨w.defined, w.usage, w.documentation, history⟩ } =
      wordRead w tokens (restoredHistory m w.name history) := by
  unfold Dictionary.wordDefined restoredHistory
  cases found : m.dictionary.find? w.name with
  | none => rfl
  | some old =>
      have named : old.name = w.name := Dictionary.name_of_find? found
      simp [Dictionary.supersede, Definition.toWord, Definition.records, wordRead, named]

/-- The machine that a restore leaves has the effects of the restored snapshot. -/
theorem restored_afterRestore (m : Machine) (s : Snapshot)
    {definitions : List (String × Definition)}
    (defined : List.Forall₂ Defines (compiledWords s.dictionary) definitions) :
    Restored m s (m.afterRestore s.stack definitions) where
  stack := List.reverse_reverse s.stack
  names := by
    rw [← names_of_defines defined]
    exact Dictionary.names_afterDefines _ _ _
  unnamed name absent := by
    rw [← names_of_defines defined] at absent
    exact Dictionary.find?_afterDefines_of_notMem _ _ _ _ absent
  named w member once := by
    obtain ⟨index, below, rfl⟩ := List.mem_iff_getElem.mp member
    have defines := List.Forall₂.get defined below (defined.length_eq ▸ below)
    obtain ⟨tokens, history, body, decodes, same⟩ := defines
    refine ⟨tokens, history, body, decodes, ?_⟩
    rw [← wordDefined_of_stored]
    rw [← names_of_defines defined] at once
    have present := List.getElem_mem (defined.length_eq ▸ below)
    rw [List.get_eq_getElem, List.get_eq_getElem] at same
    rw [same] at present
    exact Dictionary.find?_afterDefines_of_count_eq_one _ _ _ _ present once
  limits := ⟨rfl, rfl, Dictionary.afterDefines_historyLimit _ _ _⟩
  others := rfl

/-- **A failed restore changes nothing.** After every check has passed, no push and no
definition fails. -/
theorem restore_atomic (m : Machine) (s : Snapshot) :
    ((m.restore s).error ≠ none → (m.restore s).machine = m) ∧
      ∀ definitions, s.version = currentVersion → s.stack.length ≤ m.data.limit →
        readWords m.dictionary s.dictionary = .ok definitions →
          (m.replaceState s.stack definitions).error = none := by
  refine ⟨fun failed => ?_, fun definitions _ fits read => ?_⟩
  · obtain ⟨error, unchanged⟩ | ⟨definitions, _, _, _, succeeded⟩ := restore_cases m s
    · rw [unchanged]
      rfl
    · rw [succeeded] at failed
      exact (failed rfl).elim
  · rw [replaceState_eq m s.stack fits read]
    rfl

/-- A stored word that may be defined and a later one whose name is protected: neither is
defined, and the stack stays. -/
theorem restore_atomic_of_clash :
    let m := ((ofConfig .default .millennium).defineAll [("X", { isProtected := true })]).machine
    let s : Snapshot :=
      ⟨currentVersion, .millennium, [.nil],
        [⟨"Y", "( -- )", "[]", false, .millennium, 0, [], none⟩,
          ⟨"X", "( -- )", "[]", false, .millennium, 0, [], none⟩], none, none⟩
    (m.restore s).error = some (.protectedWord "X") ∧ (m.restore s).machine = m := by
  intro m s
  have failed : (m.restore s).error = some (.protectedWord "X") := by decide +kernel
  exact ⟨failed, (restore_atomic m s).1 (by rw [failed]; simp)⟩

/-- **The exact effect of a restore.** It succeeds under the stated conditions and no
others, and then the machine is the restored one. -/
theorem restore_exact (m : Machine) (s : Snapshot) :
    ((m.restore s).error = none ↔
        s.version = currentVersion ∧ s.stack.length ≤ m.data.limit ∧
          ∀ w ∈ compiledWords s.dictionary, Restorable m.dictionary w) ∧
      ((m.restore s).error = none → Restored m s (m.restore s).machine) := by
  refine ⟨restore_error_eq_none_iff, fun succeeded => ?_⟩
  obtain ⟨error, failed⟩ | ⟨definitions, _, _, read, restored⟩ := restore_cases m s
  · rw [failed] at succeeded
    cases succeeded
  · rw [restored]
    exact restored_afterRestore m s (readWords_ok_iff.mp read).2

/-- A stored word that replaces a user's word beside a native one that is left out. -/
theorem restore_exact_of_redefinition :
    let m := ((ofConfig .default .millennium).define "X" (.ofTokens ["1"])).machine
    let s : Snapshot :=
      ⟨currentVersion, .millennium, [.nil],
        [⟨"N", "( -- )", nativeSentinel, false, .millennium, 0, [], none⟩,
          ⟨"X", "( -- )", "[\"2\"]", true, .millennium, 7, [], none⟩], none, none⟩
    (m.restore s).error = none ∧ Restored m s (m.restore s).machine := by
  intro m s
  have succeeded : (m.restore s).error = none := by decide +kernel
  exact ⟨succeeded, (restore_exact m s).2 succeeded⟩

end Machine

end WordMachine
