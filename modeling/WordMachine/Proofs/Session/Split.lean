import WordMachine.Proofs.Session.Words
import WordMachine.Proofs.Stack

/-! # A session that is split by a save and a restore

A session loads sources into a machine with the whole library. A machine that is saved as
text, read back and restored beside a library of its own goes on exactly like the machine
that was saved: it ends every load in the same way, with the same output and the same
stack, and is saved alike again. The two machines differ in the use counts of library words
and in what their consoles wrote before.
-/

namespace WordMachine

namespace Session

open Machine
open Library (bootstrapped)

/-- Machines of one session in step: the first is what the session was before the split, the
second what it is after. Their consoles held `before` and `before'` when they were put
in step. -/
structure Related (clock : Instant) (before before' : String) (m m' : Machine) : Prop where
  config : m.config = .default
  config' : m'.config = .default
  data : m.data.Sound "data" Config.default.stackDepth fun v => v.detach = v
  data' : m'.data = m.data
  quiet : m.tracing = false
  quiet' : m'.tracing = false
  time : m.clock = clock
  time' : m'.clock = clock
  limit : m.dictionary.historyLimit = Config.default.historyLimit
  limit' : m'.dictionary.historyLimit = Config.default.historyLimit
  named : m.dictionary.WellNamed
  words : InStep (Library.installed 0 clock) m.dictionary.words m'.dictionary.words
  console : ∃ out, m.console = ⟨before ++ out, none, false⟩ ∧
    m'.console = ⟨before' ++ out, none, false⟩

namespace Related

variable {clock : Instant} {before before' : String} {m m' : Machine}

/-- The second machine follows the first. -/
abbrev Follow (clock : Instant) (before before' : String) (first second : Outcome) : Prop :=
  FollowsNow (fun _ => False) (Related clock before before') first second

/-- A name is missing on both sides or finds words that look alike. -/
theorem find? (related : Related clock before before' m m') (name : String) :
    (m.dictionary.find? name = none ∧ m'.dictionary.find? name = none) ∨
      ∃ w w', m.dictionary.find? name = some w ∧ m'.dictionary.find? name = some w' ∧
        Matches w w' :=
  find?_of_forall₂ related.words.forall₂ name

/-- Both sides protect the same names. -/
theorem protects (related : Related clock before before' m m') (name : String) :
    m'.dictionary.protects name = m.dictionary.protects name := by
  unfold Dictionary.protects
  rcases related.find? name with ⟨missing, missing'⟩ | ⟨w, w', found, found', same⟩
  · rw [missing, missing']
  · rw [found, found', Option.any_some, Option.any_some, same.isProtected]

/-- A name that is not protected is no name of the library. -/
theorem apart (related : Related clock before before' m m') {name : String}
    (free : m.dictionary.protects name = false) :
    ∀ original ∈ Library.installed 0 clock, original.name ≠ name := by
  apply related.words.apart
  intro w member called
  have found := Dictionary.find?_of_mem related.named.distinct member
  rw [called] at found
  rwa [Dictionary.protects, found, Option.any_some] at free

/-- A computation on the data stack does the same on both sides. -/
theorem onStack (related : Related clock before before' m m') {computation : StackM Unit}
    (keeps : computation.Keeps (Stack.Sound "data" Config.default.stackDepth
      fun v => v.detach = v) fun _ => True) :
    Follow clock before before' (m.onStack computation) (m'.onStack computation) := by
  have after := keeps m.data related.data
  unfold Machine.onStack
  rw [related.data']
  cases reached : computation m.data with
  | ok _ stack =>
      rw [reached] at after
      exact .inr ⟨rfl, { related with data := after.1, data' := rfl }⟩
  | error error stack =>
      rw [reached] at after
      exact .inr ⟨rfl, { related with data := after, data' := rfl }⟩

/-- Both sides write the same text. -/
theorem write (related : Related clock before before' m m') (text : String) :
    Follow clock before before' (m.write text) (m'.write text) := by
  obtain ⟨out, console, console'⟩ := related.console
  unfold Machine.write
  rw [console, console']
  refine .inr ⟨rfl, { related with console := ⟨out ++ text, ?_⟩ }⟩
  rw [← String.append_assoc, ← String.append_assoc]
  exact ⟨rfl, rfl⟩

/-- A console word does the same on both sides. -/
theorem consoleWord (related : Related clock before before' m m') (word : ConsoleWord) :
    Follow clock before before' (word.run m) (word.run m') := by
  have names : m'.dictionary.names = m.dictionary.names := related.words.names
  have after := word.keeps_text m.dictionary.names m.data related.data
  unfold ConsoleWord.run
  rw [related.data', names]
  cases reached : word.text m.dictionary.names m.data with
  | ok text stack =>
      rw [reached] at after
      have changed : Related clock before before' { m with data := stack }
          { m' with data := stack } := { related with data := after.1, data' := rfl }
      exact changed.write text
  | error error stack =>
      rw [reached] at after
      exact .inr ⟨rfl, { related with data := after, data' := rfl }⟩

/-- Definitions keep dictionaries in step. -/
theorem afterDefine (related : Related clock before before' m m') {name : String}
    (free : m.dictionary.protects name = false) (effect : Option String) (tokens : List String) :
    let definition : Definition := { effect, body := .compiled tokens }
    InStep (Library.installed 0 clock) (m.dictionary.afterDefine m.clock name definition).words
      (m'.dictionary.afterDefine m'.clock name definition).words := by
  intro definition
  rw [related.time, related.time']
  unfold Dictionary.afterDefine
  rcases related.find? name with ⟨missing, missing'⟩ | ⟨w, w', found, found', _⟩
  · rw [missing, missing']
    exact related.words.append (.defined name effect tokens clock)
  · rw [found, found', related.limit, related.limit']
    refine related.words.replace name ?_ ?_
    · exact fun alike => alike.supersede _ clock effect tokens
    · exact fun original member _ _ same => (related.apart free original member same).elim

/-- A compiled definition does the same on both sides. -/
theorem define (related : Related clock before before' m m') (name : String)
    (effect : Option String) (tokens : List String) :
    let definition : Definition := { effect, body := .compiled tokens }
    Follow clock before before' (m.define name definition) (m'.define name definition) := by
  intro definition
  unfold Machine.define
  rw [Dictionary.define_eq, Dictionary.define_eq, related.protects]
  by_cases empty : name = ""
  · rw [if_pos empty, if_pos empty]
    exact .of_error related _
  · rw [if_neg empty, if_neg empty]
    cases free : m.dictionary.protects name with
    | true =>
        rw [if_pos rfl, if_pos rfl]
        exact .of_error related _
    | false =>
        rw [if_neg Bool.false_ne_true, if_neg Bool.false_ne_true]
        have allowed : m.dictionary.define m.clock name definition =
            .ok (m.dictionary.afterDefine m.clock name definition) :=
          Dictionary.define_ok_iff.mpr ⟨empty, free, rfl⟩
        refine .inr ⟨rfl, { related with
          limit := ?_, limit' := ?_, named := ?_, words := ?_ }⟩
        · exact (Dictionary.afterDefine_historyLimit ..).trans related.limit
        · exact (Dictionary.afterDefine_historyLimit ..).trans related.limit'
        · exact related.named.define allowed
        · exact related.afterDefine free effect tokens

/-- Forgetting does the same on both sides. -/
theorem forget (related : Related clock before before' m m') (name : String) :
    Follow clock before before' (m.forget name) (m'.forget name) := by
  unfold Machine.forget Dictionary.forget
  rcases related.find? name with ⟨missing, missing'⟩ | ⟨w, w', found, found', same⟩
  · rw [missing, missing']
    exact .of_error related _
  · rw [found, found']
    dsimp only
    rw [same.isProtected]
    cases guarded : w.isProtected with
    | true =>
        rw [if_pos rfl, if_pos rfl]
        exact .of_error related _
    | false =>
        rw [if_neg Bool.false_ne_true, if_neg Bool.false_ne_true]
        have free : m.dictionary.protects name = false := by
          rw [Dictionary.protects, found, Option.any_some, guarded]
        have forgotten := Dictionary.forget_ok_iff.mpr ⟨found, guarded, rfl⟩
        refine .inr ⟨rfl, { related with named := ?_, words := ?_ }⟩
        · exact related.named.forget forgotten
        · exact related.words.forget (related.apart free)

theorem record (related : Related clock before before' m m') (token : String) :
    Related clock before before' (m.record token) (m'.record token) := by
  unfold Machine.record
  rw [related.quiet, related.quiet', if_neg Bool.false_ne_true, if_neg Bool.false_ne_true]
  exact related

/-- A name that is resolved on one side is resolved on the other, to a body that acts alike. -/
theorem resolved (related : Related clock before before' m m') {name : String} {body : Body}
    {dictionary : Dictionary} (found : m.dictionary.resolve? name = some (body, dictionary)) :
    ∃ body' dictionary', m'.dictionary.resolve? name = some (body', dictionary') ∧
      body.ActsLike body' ∧ body.Admitted OfLibrary ∧
      Related clock before before' { m with dictionary }
        { m' with dictionary := dictionary' } := by
  have named := related.named.resolve found
  obtain ⟨w, word, rfl, rfl⟩ := Dictionary.resolve?_eq_some_iff.mp found
  rcases related.find? name with ⟨missing, _⟩ | ⟨w₀, w', word₀, word', same⟩
  · rw [missing] at word
    cases word
  · rw [word₀] at word
    cases word
    refine ⟨w'.body, _, Dictionary.resolve?_eq_some_iff.mpr ⟨w', word', rfl, rfl⟩, same.acts,
      same.admitted, ?_⟩
    exact { related with named, words := related.words.used name }

/-- A name that is missing on one side is missing on the other. -/
theorem unresolved (related : Related clock before before' m m') {name : String}
    (missing : m.dictionary.resolve? name = none) : m'.dictionary.resolve? name = none := by
  unfold Dictionary.resolve? at missing ⊢
  rw [Option.map_eq_none_iff] at missing ⊢
  rcases related.find? name with ⟨_, missing'⟩ | ⟨w, w', found, _⟩
  · exact missing'
  · rw [missing] at found
    cases found

end Related

/-- Core words make values without objects. -/
theorem made_detached : Value.Made fun v => v.detach = v :=
  ⟨fun _ => rfl, fun _ => rfl, rfl⟩

/-- Machines in step stay in step, whatever a session does. -/
theorem simulation (clock : Instant) (before before' : String) :
    Simulation OfLibrary (fun _ => False) (Related clock before before') where
  number related _ := related.onStack (StackM.keeps_push rfl)
  push _ _ admitted := admitted.elim
  count related := related.words.forall₂.length_eq.symm
  core related word := related.onStack (word.keeps_run made_detached)
  console related word := related.consoleWord word
  define related name effect tokens := related.define name effect tokens
  forget related name := related.forget name
  record related token := related.record token
  enter related := { related with }
  leave related := { related with }
  unresolved related _ missing := related.unresolved missing
  resolved related _ _ _ found := related.resolved found

/-! ## The start of a session -/

/-- A machine with the whole library is in step with itself. -/
theorem related_start {clock : Instant} {start : Machine}
    (started : Library.machine .default clock = .ok start) :
    Related clock "" "" start start := by
  have reachable : Reachable .default start := by
    refine .step (.install 0 Library.full) (.initial clock) ?_
    rw [Library.machine_ok_iff.mp started, perform, Library.install_full]
    rfl
  have named := reachable.wellNamed
  rw [Library.machine_ok_iff] at started
  subst started
  refine ⟨rfl, rfl, ?_, rfl, rfl, rfl, rfl, rfl, rfl, rfl, named, ?_, ⟨"", rfl, rfl⟩⟩
  · exact ⟨rfl, rfl, Nat.zero_le _, fun _ member => nomatch member⟩
  · exact .of_copies (copies_installed 0 0 clock) (copies_installed 0 0 clock)

/-! ## The split -/

namespace Related

variable {clock : Instant} {before before' : String} {m m' : Machine}

theorem plain_of_mem_save (related : Related clock before before' m m') :
    ∀ w ∈ m.save.dictionary, w.Plain := by
  intro w member
  obtain ⟨word, present, rfl⟩ := List.mem_map.mp member
  exact (related.words.plain word present).2

/-- What is saved of a session reads back from its text. -/
theorem ofText_save (related : Related clock before before' m m') :
    Snapshot.ofText m.save.toText = .ok m.save := by
  have shallow : m.save.Shallow := by
    intro w member
    exact (Snapshot.wordLevels_le_of_plain (related.plain_of_mem_save w member)).trans (by decide)
  have detached : ∀ v ∈ m.save.stack, v.detach = id v :=
    fun v member => related.data.all v (List.mem_reverse.mp member)
  have stack : m.save.stack.map Value.detach = m.save.stack := by
    rw [List.map_congr_left detached, List.map_id]
  rw [Snapshot.ofText_toText shallow, Snapshot.detached, stack]

theorem config_save (related : Related clock before before' m m') :
    m.save.config = .default := by
  unfold Machine.save Snapshot.config
  rw [related.config]
  rfl

/-- The user words of a session can be restored beside a library. -/
theorem restorable (related : Related clock before before' m m') (identity : Nat) :
    ∀ w ∈ Snapshot.compiledWords m.save.dictionary,
      Snapshot.Restorable (bootstrapped identity .default clock).dictionary w := by
  intro w member
  obtain ⟨stored, compiled⟩ := List.mem_filter.mp member
  obtain ⟨word, user, rfl⟩ := List.mem_map.mp stored
  have present : word ∈ m.dictionary.words := List.mem_of_mem_filter user
  have found := Dictionary.find?_of_mem related.named.distinct present
  have free : m.dictionary.protects word.name = false := by
    rw [Dictionary.protects, found, Option.any_some, (related.words.plain word user).1]
  obtain ⟨tokens, body⟩ := Snapshot.exists_tokens_of_ofWord (of_decide_eq_true compiled)
  obtain ⟨history, decodes, _⟩ := Snapshot.decodes_ofHistory word.history
  refine ⟨?_, ?_, ?_, ?_⟩
  · rw [Snapshot.ofWord_body, body, Snapshot.bodyTokens?_bodyText]
    rfl
  · intro empty
    rw [Snapshot.ofWord_name] at empty
    exact related.named.nonempty (List.mem_map.mpr ⟨word, present, empty⟩)
  · have absent : word.name ∉ (bootstrapped identity .default clock).dictionary.names := by
      rw [Library.names_bootstrapped, ← Library.names_bootstrapped 0 .default clock,
        Dictionary.names, Library.words_bootstrapped]
      intro known
      obtain ⟨original, member, same⟩ := List.mem_map.mp known
      exact related.apart free original member same
    rw [Snapshot.ofWord_name, Dictionary.protects, Dictionary.find?_eq_none_iff.mpr absent]
    rfl
  · rw [Snapshot.ofWord_history]
    exact (Snapshot.exists_decodes_iff _).mp ⟨history, decodes⟩

/-- The definitions that the saved words stand for make words that are stored alike. -/
theorem alike_of_defines (related : Related clock before before' m m')
    {definitions : List (String × Definition)}
    (defined : List.Forall₂ Snapshot.Defines (Snapshot.compiledWords m.save.dictionary)
      definitions) :
    List.Forall₂ Alike (userWords m.dictionary.words)
      (definitions.map fun p => p.2.toWord p.1 clock) := by
  have whole : Snapshot.compiledWords m.save.dictionary =
      (userWords m.dictionary.words).map Snapshot.ofWord := by
    apply List.filter_eq_self.mpr
    intro w member
    exact decide_eq_true (related.plain_of_mem_save w member).body
  rw [whole, List.forall₂_map_left_iff] at defined
  have known : ∀ w ∈ userWords m.dictionary.words,
      (w.isProtected = false ∧ (Snapshot.ofWord w).Plain) ∧ w.category = .user :=
    fun w member => ⟨related.words.plain w member, beq_iff_eq.mp (List.mem_filter.mp member).2⟩
  rw [List.forall₂_map_right_iff]
  refine List.Forall₂.imp ?_ ((List.forall₂_and_left _ _).mpr ⟨known, defined⟩)
  rintro w p ⟨⟨⟨unprotected, plain⟩, category⟩, defines⟩
  exact .of_defines unprotected category plain defines clock

/-- What is restored of a session beside a library of its own is in step with it. -/
theorem afterRestore (related : Related clock before before' m m') {identity : Nat}
    {definitions : List (String × Definition)}
    (read : Snapshot.readWords (bootstrapped identity .default clock).dictionary
      m.save.dictionary = .ok definitions) :
    Related clock m.console.written "" m
      ((bootstrapped identity .default clock).afterRestore m.save.stack definitions) := by
  obtain ⟨_, defined⟩ := Snapshot.readWords_ok_iff.mp read
  have new : ∀ p ∈ definitions, p.1 ∉ (bootstrapped identity .default clock).dictionary.names := by
    refine fresh_of_readWords read ?_
    intro w member in_the_way
    rw [Library.words_bootstrapped] at member
    have guarded := (Library.isLibrary_of_mem_installed member).isProtected
    rw [in_the_way.1] at guarded
    cases guarded
  have distinct : (definitions.map Prod.fst).Nodup :=
    Snapshot.names_of_defines defined ▸ nodup_compiledWords_save related.named
  have words := Dictionary.words_afterDefines_of_fresh
    (bootstrapped identity .default clock).dictionary clock definitions distinct new
  obtain ⟨out, console, _⟩ := related.console
  refine { related with
    config' := rfl, data' := ?_, quiet' := rfl, time' := rfl, limit' := ?_, words := ?_,
    console := ⟨"", ?_, rfl⟩ }
  · have called := related.data.called
    have bound := related.data.bound
    rw [Machine.afterRestore, Machine.save, Stack.toList, List.reverse_reverse]
    exact Eq.mpr (Stack.mk.injEq ..) ⟨called.symm, bound.symm, rfl⟩
  · exact Dictionary.afterDefines_historyLimit _ _ _
  · rw [Library.words_bootstrapped] at words
    have inStep := related.words.restored (copies_installed 0 identity clock)
      (related.alike_of_defines defined)
    rw [← words] at inStep
    exact inStep
  · rw [console, String.append_empty]

/-- A session can be restored beside a library of its own, and what is restored is in step
with it. -/
theorem exists_restored (related : Related clock before before' m m') (identity : Nat) :
    ∃ w, ofSnapshot clock (Library.install identity Library.full) m.save = .ok w ∧
      Related clock m.console.written "" m w ∧ w.console.written = "" := by
  have fits : m.save.stack.length ≤ (bootstrapped identity .default clock).data.limit := by
    rw [Machine.save, Stack.toList, List.length_reverse]
    exact related.data.fits
  have succeeded : ((bootstrapped identity .default clock).restore m.save).error = none :=
    restore_error_eq_none_iff.mpr ⟨rfl, fits, related.restorable identity⟩
  have made : ofSnapshot clock (Library.install identity Library.full) m.save =
      .ok ((bootstrapped identity .default clock).restore m.save).machine := by
    rw [ofSnapshot_ok_iff, related.config_save, Library.install_full]
    exact ⟨rfl, succeeded, rfl⟩
  refine ⟨_, made, ?_⟩
  obtain ⟨error, failed⟩ | ⟨definitions, _, _, read, restored⟩ :=
    restore_cases (bootstrapped identity .default clock) m.save
  · rw [failed] at succeeded
    cases succeeded
  · rw [restored]
    exact ⟨related.afterRestore read, rfl⟩

/-- Machines in step are saved alike. -/
theorem save_eq (related : Related clock before before' m m') : m'.save = m.save := by
  have words := related.words.saved
  unfold userWords at words
  unfold Machine.save
  rw [words, related.data', related.time, related.time', related.config, related.config']

end Related

/-- **A split session goes on as if it had not been split.** A session that loaded a source
without an error is saved as text, read back and restored beside a library of its own.
All of this succeeds, and the restored machine ends every further load as the first machine
does: with the same error or none, the same output and the same data stack, and both are
saved alike after it. -/
theorem load_of_split {clock : Instant} {start : Machine}
    (started : Library.machine .default clock = .ok start) {bound : Nat} {first : String}
    {v : Machine} (loaded : start.load bound first = some ⟨v, none⟩) (identity : Nat) :
    ∃ s w, Snapshot.ofText v.save.toText = .ok s ∧
      ofSnapshot clock (Library.install identity Library.full) s = .ok w ∧
      ∀ bound second ended, v.load bound second = some ended →
        ∃ ended', w.load bound second = some ended' ∧ ended'.error = ended.error ∧
          (∃ out, ended.machine.console.written = v.console.written ++ out ∧
            ended'.machine.console.written = w.console.written ++ out) ∧
          ended'.machine.data = ended.machine.data ∧
          ended'.machine.save = ended.machine.save := by
  have related : Related clock "" "" v v := by
    obtain ⟨loaded', again, alike⟩ := (simulation clock "" "").exists_load
      (related_start started) loaded
    rw [loaded, Option.some.injEq] at again
    subst again
    exact alike.machine
  obtain ⟨w, made, inStep, silent⟩ := related.exists_restored identity
  refine ⟨v.save, w, related.ofText_save, made, ?_⟩
  intro bound second ended reached
  obtain ⟨ended', reached', alike⟩ := (simulation clock v.console.written "").exists_load
    inStep reached
  obtain ⟨out, console, console'⟩ := alike.machine.console
  refine ⟨ended', reached', alike.error, ⟨out, ?_, ?_⟩, alike.machine.data',
    alike.machine.save_eq⟩
  · rw [console]
  · rw [console', silent]

/-- A redefined word goes on counting in a restored machine, up to the error of a later
word. -/
theorem load_of_split_of_redefinition :
    let first := ": CUBE DUP * ; : CUBE DUP DUP * * ; 2 CUBE"
    let second := "CUBE . NIP"
    ∃ start v s w ended, Library.machine .default .millennium = .ok start ∧
      start.load 2 first = some ⟨v, none⟩ ∧ Snapshot.ofText v.save.toText = .ok s ∧
      ofSnapshot .millennium (Library.install 0 Library.full) s = .ok w ∧
      w.load 2 second = some ended ∧
      ended.error = some ⟨.machine (.stackUnderflow "data"), 1, 8⟩ ∧
      ended.machine.console.written = w.console.written ++ "512 " := by
  intro first second
  have started : Library.machine .default .millennium = .ok (bootstrapped 0 .default .millennium) :=
    Library.machine_ok_iff.mpr rfl
  have first_ends : ((bootstrapped 0 .default .millennium).load 2 first).map
      (fun l => (l.error, l.machine.console.written)) = some (none, "") := by
    decide +kernel
  have second_ends : (((bootstrapped 0 .default .millennium).load 2 first).bind
      fun l => l.machine.load 2 second).map (fun l => (l.error, l.machine.console.written)) =
      some (some ⟨.machine (.stackUnderflow "data"), 1, 8⟩, "512 ") := by
    decide +kernel
  obtain ⟨⟨v, error⟩, loaded, values⟩ := Option.map_eq_some_iff.mp first_ends
  obtain ⟨rfl, silent⟩ := Prod.mk.inj values
  rw [loaded, Option.bind_some] at second_ends
  obtain ⟨reached, ended, values⟩ := Option.map_eq_some_iff.mp second_ends
  obtain ⟨failed, written⟩ := Prod.mk.inj values
  obtain ⟨s, w, read, made, follows⟩ := load_of_split started loaded 0
  obtain ⟨ended', reached', error, ⟨out, before, after⟩, _, _⟩ := follows 2 second reached ended
  dsimp only at silent
  rw [written, silent, String.empty_append] at before
  rw [← before] at after
  exact ⟨_, v, s, w, ended', started, loaded, read, made, reached', error.trans failed, after⟩

end Session

end WordMachine
