import Mathlib.Data.List.DropRight
import WordMachine.Proofs.Dictionary.Refinement

/-! # Histories hold what was superseded

A redefinition takes over the history of the old word, adds the old word to it and gives up the
oldest versions beyond the limit. So the history of a word is told by what was done to the
dictionary: it holds the last versions that were superseded since the name was introduced, each as
the dictionary had it just before. Words change between redefinitions when their uses are counted,
and a name that was forgotten starts again without a past.
-/

namespace WordMachine

/-- An operation that defines no word with records of its own. -/
def StoreOperation.Unrecorded : StoreOperation → Prop
  | .define _ _ definition => definition.metadata = none
  | .forget _ | .resolve _ | .duplicate _ => True

namespace Dictionary

open StoreOperation (Defines Forgets)

/-! ## Sequences of operations -/

/-- The dictionary after operations that are performed in a row. -/
def afterAll (limit : Nat) (sequence : List StoreOperation) : Dictionary :=
  (operations.performAll (empty limit) sequence).2

/-- The log of these operations. -/
def logged (limit : Nat) (sequence : List StoreOperation) : StoreLog :=
  (operations.performAll (empty limit) sequence).1

theorem afterAll_concat (limit : Nat) (before : List StoreOperation) (operation : StoreOperation) :
    afterAll limit (before ++ [operation]) =
      (operations.perform (afterAll limit before) operation).2 := by
  rw [afterAll, WordStore.performAll_concat]
  rfl

theorem logged_concat (limit : Nat) (before : List StoreOperation) (operation : StoreOperation) :
    logged limit (before ++ [operation]) =
      logged limit before ++
        [(operation, (operations.perform (afterAll limit before) operation).1)] := by
  rw [logged, WordStore.performAll_concat]
  rfl

theorem length_logged (limit : Nat) (sequence : List StoreOperation) :
    (logged limit sequence).length = sequence.length := by
  induction sequence using List.reverseRecOn with
  | nil => rfl
  | append_singleton before operation ih =>
      rw [logged_concat, List.length_append, List.length_append, ih]
      rfl

theorem WellNamed.perform_historyLimit {d : Dictionary} (named : d.WellNamed)
    (operation : StoreOperation) :
    (operations.perform d operation).2.historyLimit = d.historyLimit := by
  cases operation with
  | define now name definition =>
      obtain ⟨_, performed⟩ | ⟨defined, performed⟩ := perform_define d now name definition <;>
        rw [performed]
      exact define_historyLimit defined
  | forget name =>
      obtain ⟨_, performed⟩ | ⟨_, _, forgotten, performed⟩ := perform_forget d name <;>
        rw [performed]
      exact forget_historyLimit forgotten
  | resolve name =>
      obtain performed | ⟨_, _, resolved, performed⟩ := perform_resolve d name <;>
        rw [performed]
      exact resolve_historyLimit resolved
  | duplicate now => rw [named.perform_duplicate]

theorem afterAll_historyLimit (limit : Nat) (sequence : List StoreOperation) :
    (afterAll limit sequence).historyLimit = limit := by
  induction sequence using List.reverseRecOn with
  | nil => rfl
  | append_singleton before operation ih =>
      have named : (afterAll limit before).WellNamed := wellNamed_performAll limit before
      rw [afterAll_concat, named.perform_historyLimit, ih]

/-! ## Superseded versions -/

/-- The version of a name that a step supersedes: a successful definition of the name supersedes the
word that the dictionary has for it, which is archived without its own history. -/
def supersededBy? (d : Dictionary) (name : String) :
    StoreOperation × StoreAnswer → Option Revision
  | (.define now defined _, .done) =>
    if defined = name then (d.find? name).map fun w => ⟨w.withoutHistory, now⟩ else none
  | _ => none

/-- The version of a name that is superseded at a position of a sequence, as the operations before
the position left it. -/
def supersededAt? (limit : Nat) (sequence : List StoreOperation) (name : String)
    (position : Nat) : Option Revision :=
  (logged limit sequence)[position]?.bind
    ((afterAll limit (sequence.take position)).supersededBy? name)

/-- The versions of a name that are superseded after a position, oldest first. -/
def supersededAfter (limit : Nat) (sequence : List StoreOperation) (name : String)
    (position : Nat) : List Revision :=
  ((List.range sequence.length).filter (position < ·)).filterMap (supersededAt? limit sequence name)

theorem supersededBy?_of_not_defines {d : Dictionary} {name : String}
    {step : StoreOperation × StoreAnswer} (other : ¬Defines name step) :
    d.supersededBy? name step = none := by
  unfold supersededBy?
  split
  · next now defined definition =>
      apply if_neg
      rintro rfl
      exact other ⟨now, definition, rfl⟩
  · rfl

theorem supersededAt?_concat_of_lt (limit : Nat) {before : List StoreOperation}
    (operation : StoreOperation) (name : String) {position : Nat}
    (inside : position < before.length) :
    supersededAt? limit (before ++ [operation]) name position =
      supersededAt? limit before name position := by
  have within : position < (logged limit before).length := by
    rw [length_logged]
    exact inside
  rw [supersededAt?, supersededAt?, List.take_append_of_le_length (Nat.le_of_lt inside),
    logged_concat, List.getElem?_append_left within]

theorem supersededAt?_concat_length (limit : Nat) (before : List StoreOperation)
    (operation : StoreOperation) (name : String) :
    supersededAt? limit (before ++ [operation]) name before.length =
      (afterAll limit before).supersededBy? name
        (operation, (operations.perform (afterAll limit before) operation).1) := by
  rw [supersededAt?, List.take_left, logged_concat, ← length_logged limit before,
    List.getElem?_concat_length, Option.bind_some]

/-- One more operation adds the version that it supersedes. -/
theorem supersededAfter_concat (limit : Nat) (before : List StoreOperation)
    (operation : StoreOperation) (name : String) (position : Nat) :
    supersededAfter limit (before ++ [operation]) name position =
      supersededAfter limit before name position ++
        if position < before.length then
          ((afterAll limit before).supersededBy? name
            (operation, (operations.perform (afterAll limit before) operation).1)).toList
        else [] := by
  have earlier : ((List.range before.length).filter (position < ·)).filterMap
      (supersededAt? limit (before ++ [operation]) name) =
      supersededAfter limit before name position := by
    apply List.filterMap_congr
    intro i member
    have inside : i < before.length := List.mem_range.mp (List.mem_of_mem_filter member)
    exact supersededAt?_concat_of_lt limit operation name inside
  rw [supersededAfter, List.length_append, List.length_singleton, List.range_succ,
    List.filter_append, List.filterMap_append, earlier, ← supersededAt?_concat_length]
  congr 1
  by_cases after : position < before.length
  · rw [if_pos after, List.filter_singleton, decide_eq_true after, cond_true, List.filterMap_cons,
      List.filterMap_nil]
    cases supersededAt? limit (before ++ [operation]) name before.length <;> rfl
  · rw [if_neg after, List.filter_singleton, decide_eq_false after]
    rfl

/-- After its last operation, a sequence supersedes nothing. -/
theorem supersededAfter_eq_nil (limit : Nat) {sequence : List StoreOperation} (name : String)
    {position : Nat} (recent : sequence.length ≤ position + 1) :
    supersededAfter limit sequence name position = [] := by
  have none : (List.range sequence.length).filter (position < ·) = [] := by
    apply List.filter_eq_nil_iff.mpr
    intro i member
    have inside := List.mem_range.mp member
    rw [decide_eq_true_eq]
    omega
  rw [supersededAfter, none, List.filterMap_nil]

/-- The last versions of a list and one more, as many as the limit allows, are the last versions of
both. -/
theorem newest_rtake_concat (limit : Nat) (versions : List Revision) (version : Revision) :
    newest limit (versions.rtake limit ++ [version]) = (versions ++ [version]).rtake limit := by
  change (versions.rtake limit ++ [version]).rtake limit = _
  cases limit with
  | zero => rw [List.rtake_zero, List.rtake_zero]
  | succ limit =>
      rw [List.rtake_concat_succ, List.rtake_concat_succ]
      congr 1
      simp only [List.rtake_eq_reverse_take_reverse, List.reverse_reverse, List.take_take]
      rw [Nat.min_eq_left (Nat.le_succ limit)]

/-! ## Runs -/

/-- The history of the word of a name holds the last versions that were superseded since the name
was introduced. -/
def KeepsSuperseded (limit : Nat) (sequence : List StoreOperation) (name : String) : Prop :=
  ∀ position word, (logged limit sequence).IntroducedAt name position →
    (afterAll limit sequence).find? name = some word →
      word.history = (supersededAfter limit sequence name position).rtake limit

namespace KeepsSuperseded

variable {limit : Nat} {before : List StoreOperation} {operation : StoreOperation} {name : String}
  {answer : StoreAnswer} {next : Dictionary}

/-- An operation that neither defines nor forgets a name keeps what its history holds. -/
theorem other (keeps : KeepsSuperseded limit before name)
    (performed : operations.perform (afterAll limit before) operation = (answer, next))
    (undefined : ¬Defines name (operation, answer))
    (unforgotten : ¬Forgets name (operation, answer))
    (same : ∀ word, next.find? name = some word →
      ∃ old, (afterAll limit before).find? name = some old ∧ word.history = old.history) :
    KeepsSuperseded limit (before ++ [operation]) name := by
  intro position word introduced found
  rw [logged_concat, performed,
    StoreLog.introducedAt_concat_of_other undefined unforgotten] at introduced
  rw [afterAll_concat, performed] at found
  obtain ⟨old, present, history⟩ := same word found
  rw [supersededAfter_concat, performed, supersededBy?_of_not_defines undefined,
    Option.toList_none, ite_self, List.append_nil, history]
  exact keeps position old introduced present

theorem unchanged (keeps : KeepsSuperseded limit before name)
    (performed : operations.perform (afterAll limit before) operation =
      (answer, afterAll limit before))
    (undefined : ¬Defines name (operation, answer))
    (unforgotten : ¬Forgets name (operation, answer)) :
    KeepsSuperseded limit (before ++ [operation]) name := by
  apply keeps.other performed undefined unforgotten
  intro word found
  exact ⟨word, found, rfl⟩

/-- A redefinition adds the old word to its history, and an introduction starts without one. -/
theorem define (keeps : KeepsSuperseded limit before name) {now : Instant}
    {definition : Definition} (unrecorded : definition.metadata = none)
    (performed : operations.perform (afterAll limit before) (.define now name definition) =
      (.done, (afterAll limit before).afterDefine now name definition)) :
    KeepsSuperseded limit (before ++ [.define now name definition]) name := by
  have defines : Defines name (.define now name definition, .done) := ⟨now, definition, rfl⟩
  have lists : (logged limit before).Lists (afterAll limit before).names :=
    lists_performAll limit before
  intro position word introduced found
  rw [logged_concat, performed, StoreLog.introducedAt_concat_of_defines defines] at introduced
  rw [afterAll_concat, performed, find?_afterDefine, if_pos rfl, Option.some.injEq] at found
  rw [← found, wordDefined]
  rcases introduced with known | ⟨rfl, absent⟩
  · -- The old word joins its own history, of which the last versions were kept before.
    have member : name ∈ (afterAll limit before).names := (lists.known name).mpr ⟨position, known⟩
    obtain ⟨old, present⟩ := Option.isSome_iff_exists.mp (find?_isSome_iff.mpr member)
    have inside : position < before.length := length_logged limit before ▸ known.defined.lt
    have version : (afterAll limit before).supersededBy? name
        (.define now name definition, .done) = some ⟨old.withoutHistory, now⟩ := by
      rw [supersededBy?, if_pos rfl, present]
      rfl
    rw [supersededAfter_concat, performed, if_pos inside, version, present]
    dsimp only [supersede, Option.toList_some]
    rw [unrecorded, Option.isNone_none, if_pos rfl, afterAll_historyLimit,
      keeps position old known present, newest_rtake_concat]
  · -- A new name has nothing superseded after its introduction, which is the last operation.
    have fresh : name ∉ (afterAll limit before).names := by
      intro member
      obtain ⟨other, introduced⟩ := (lists.known name).mp member
      exact absent other introduced
    have recent : (before ++ [StoreOperation.define now name definition]).length ≤
        (logged limit before).length + 1 := by
      rw [length_logged, List.length_append, List.length_singleton]
    rw [supersededAfter_eq_nil limit name recent, List.rtake_nil, find?_eq_none_iff.mpr fresh]
    dsimp only [Definition.toWord, Definition.records]
    rw [unrecorded]
    rfl

/-- One operation: it redefines the name, introduces it, forgets it or leaves its history alone. -/
theorem perform (keeps : KeepsSuperseded limit before name) (unrecorded : operation.Unrecorded) :
    KeepsSuperseded limit (before ++ [operation]) name := by
  cases operation with
  | define now defined definition =>
      obtain ⟨_, performed⟩ | ⟨_, performed⟩ :=
        perform_define (afterAll limit before) now defined definition
      · exact keeps.unchanged performed (fun ⟨_, _, same⟩ => nomatch same)
          fun ⟨_, same⟩ => nomatch same
      · by_cases same : name = defined
        · subst same
          exact keeps.define unrecorded performed
        · apply keeps.other performed _ (fun ⟨_, same⟩ => nomatch same)
          · intro word found
            rw [find?_afterDefine, if_neg same] at found
            exact ⟨word, found, rfl⟩
          · rintro ⟨_, _, defines⟩
            cases defines
            exact same rfl
  | forget forgotten =>
      obtain ⟨_, performed⟩ | ⟨_, _, removed, performed⟩ :=
        perform_forget (afterAll limit before) forgotten
      · exact keeps.unchanged performed (fun ⟨_, _, same⟩ => nomatch same)
          fun ⟨_, same⟩ => nomatch same
      · obtain ⟨_, _, rfl⟩ := forget_ok_iff.mp removed
        by_cases same : name = forgotten
        · subst same
          intro position _ introduced
          rw [logged_concat, performed] at introduced
          exact (StoreLog.not_introducedAt_concat_of_forgets ⟨_, rfl⟩ introduced).elim
        · apply keeps.other performed (fun ⟨_, _, same⟩ => nomatch same)
          · rintro ⟨_, forgets⟩
            cases forgets
            exact same rfl
          · intro word found
            rw [find?_filter_ne _ same] at found
            exact ⟨word, found, rfl⟩
  | resolve used =>
      obtain performed | ⟨_, next, resolved, performed⟩ :=
        perform_resolve (afterAll limit before) used
      · exact keeps.unchanged performed (fun ⟨_, _, same⟩ => nomatch same)
          fun ⟨_, same⟩ => nomatch same
      · apply keeps.other performed (fun ⟨_, _, same⟩ => nomatch same)
          (fun ⟨_, same⟩ => nomatch same)
        intro word found
        rw [find?_resolve resolved] at found
        obtain ⟨old, present, rfl⟩ := Option.map_eq_some_iff.mp found
        refine ⟨old, present, ?_⟩
        split <;> rfl
  | duplicate now =>
      have named : (afterAll limit before).WellNamed := wellNamed_performAll limit before
      exact keeps.unchanged (named.perform_duplicate now) (fun ⟨_, _, same⟩ => nomatch same)
        fun ⟨_, same⟩ => nomatch same

end KeepsSuperseded

theorem keepsSuperseded_of_unrecorded (limit : Nat) {sequence : List StoreOperation}
    (unrecorded : ∀ operation ∈ sequence, operation.Unrecorded) (name : String) :
    KeepsSuperseded limit sequence name := by
  induction sequence using List.reverseRecOn with
  | nil =>
      intro position word _ found
      cases found
  | append_singleton before operation ih =>
      rw [List.forall_mem_append] at unrecorded
      apply (ih unrecorded.1).perform
      exact unrecorded.2 operation (List.mem_singleton_self operation)

/-- **Histories hold what was superseded.** Let operations be performed in a row on an empty
dictionary, where no definition comes with records of its own. The name of every word that is found
was introduced, and the history of the word holds the versions that were superseded since then,
oldest first, of which the last are kept, as many as the limit allows. -/
theorem history_eq_superseded {limit : Nat} {sequence : List StoreOperation}
    (unrecorded : ∀ operation ∈ sequence, operation.Unrecorded) {name : String} {word : Word}
    (found : (afterAll limit sequence).find? name = some word) :
    (∃ position, (logged limit sequence).IntroducedAt name position) ∧
      ∀ position, (logged limit sequence).IntroducedAt name position →
        word.history = (supersededAfter limit sequence name position).rtake limit := by
  constructor
  · have lists : (logged limit sequence).Lists (afterAll limit sequence).names :=
      lists_performAll limit sequence
    apply (lists.known name).mp
    rw [← find?_isSome_iff, found, Option.isSome_some]
  · intro position introduced
    exact keepsSuperseded_of_unrecorded limit unrecorded name position word introduced found

/-- A name that was redefined is forgotten and introduced again. Of the three versions that are
superseded since, the last two are kept, with the uses that each had. -/
theorem history_eq_superseded_of_reintroduced :
    let define (token : String) : StoreOperation :=
      .define .millennium "X" (.ofTokens [token])
    let sequence := [define "1", .resolve "X", define "2", .forget "X", define "3", .resolve "X",
      .resolve "Y", define "4", .resolve "X", .resolve "X", define "5", define "6"]
    ∃ word position, (afterAll 2 sequence).find? "X" = some word ∧
      (logged 2 sequence).IntroducedAt "X" position ∧
      word.history = (supersededAfter 2 sequence "X" position).rtake 2 ∧
      word.history.map (fun version => (version.word.body, version.word.usage)) =
        [(.compiled ["4"], 2), (.compiled ["5"], 0)] := by
  intro define sequence
  have unrecorded : ∀ operation ∈ sequence, operation.Unrecorded := by
    unfold sequence
    simp only [List.forall_mem_cons]
    exact ⟨rfl, trivial, rfl, trivial, rfl, trivial, trivial, rfl, trivial, trivial, rfl, rfl,
      List.forall_mem_nil _⟩
  have seen : ((afterAll 2 sequence).find? "X").map (fun word =>
      word.history.map fun version => (version.word.body, version.word.usage)) =
      some [(.compiled ["4"], 2), (.compiled ["5"], 0)] := by
    decide +kernel
  obtain ⟨word, found, history⟩ := Option.map_eq_some_iff.mp seen
  obtain ⟨⟨position, introduced⟩, kept⟩ := history_eq_superseded unrecorded found
  exact ⟨word, position, found, introduced, kept position introduced, history⟩

end Dictionary

end WordMachine
