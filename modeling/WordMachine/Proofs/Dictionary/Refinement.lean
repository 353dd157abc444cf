import WordMachine.Proofs.Dictionary.OrderedMap

/-! # The names of a dictionary in the order of their introduction

A name is introduced by its first definition since it was last forgotten. The log of what
was done to a dictionary says which names these are and in what order they came, and the
dictionary lists exactly them in that order. With the ordered map that it shows and with
what one operation leaves alone, this is all that can be seen of a dictionary.
-/

namespace WordMachine

/-! ## Introductions -/

/-- A step of a log is a successful definition of a name. -/
def StoreOperation.Defines (name : String) (step : StoreOperation × StoreAnswer) : Prop :=
  ∃ now definition, step = (.define now name definition, .done)

/-- A step of a log is a successful forgetting of a name. -/
def StoreOperation.Forgets (name : String) (step : StoreOperation × StoreAnswer) : Prop :=
  ∃ word, step = (.forget name, .word word)

namespace StoreLog

open StoreOperation (Defines Forgets)

/-- A step with a property stands at a position of a log. -/
def StandsAt (log : StoreLog) (P : StoreOperation × StoreAnswer → Prop) (position : Nat) : Prop :=
  ∃ step, log[position]? = some step ∧ P step

/-- A name is defined at a position of a log. -/
def DefinedAt (log : StoreLog) (name : String) (position : Nat) : Prop :=
  log.StandsAt (Defines name) position

/-- A name is forgotten at a position of a log. -/
def ForgottenAt (log : StoreLog) (name : String) (position : Nat) : Prop :=
  log.StandsAt (Forgets name) position

/-- A name is introduced at a position: it is defined there, never forgotten after it, and
forgotten after every definition before it. -/
structure IntroducedAt (log : StoreLog) (name : String) (position : Nat) : Prop where
  defined : DefinedAt log name position
  kept : ∀ later, position < later → ¬ForgottenAt log name later
  first : ∀ earlier, earlier < position → DefinedAt log name earlier →
    ∃ between, earlier < between ∧ between < position ∧ ForgottenAt log name between

/-- Names are those that a log introduced, in the order of their introduction. -/
structure Lists (log : StoreLog) (names : List String) : Prop where
  known : ∀ name, name ∈ names ↔ ∃ position, IntroducedAt log name position
  ordered : names.Pairwise fun a b =>
    ∀ i j, IntroducedAt log a i → IntroducedAt log b j → i < j

variable {log : StoreLog} {name : String} {position : Nat}
  {step : StoreOperation × StoreAnswer}

theorem getElem?_concat_eq_some_iff {found : StoreOperation × StoreAnswer} :
    (log ++ [step])[position]? = some found ↔
      log[position]? = some found ∨ position = log.length ∧ step = found := by
  rcases Nat.lt_trichotomy position log.length with inside | rfl | beyond
  · rw [List.getElem?_append_left inside]
    simp [Nat.ne_of_lt inside]
  · simp
  · have absent : log.length ≤ position := Nat.le_of_lt beyond
    rw [List.getElem?_append_right absent, List.getElem?_eq_none absent]
    have past : [step].length ≤ position - log.length := by
      rw [List.length_singleton]
      omega
    rw [List.getElem?_eq_none past]
    simp [Nat.ne_of_gt beyond]

theorem standsAt_concat {P : StoreOperation × StoreAnswer → Prop} :
    StandsAt (log ++ [step]) P position ↔
      StandsAt log P position ∨ position = log.length ∧ P step := by
  simp only [StandsAt, getElem?_concat_eq_some_iff]
  constructor
  · rintro ⟨found, at_position | ⟨last, rfl⟩, holds⟩
    · exact .inl ⟨found, at_position, holds⟩
    · exact .inr ⟨last, holds⟩
  · rintro (⟨found, at_position, holds⟩ | ⟨last, holds⟩)
    · exact ⟨found, .inl at_position, holds⟩
    · exact ⟨step, .inr ⟨last, rfl⟩, holds⟩

/-- A step without a property adds no position at which one with it stands. -/
theorem standsAt_concat_of_not {P : StoreOperation × StoreAnswer → Prop} (fails : ¬P step) :
    StandsAt (log ++ [step]) P position ↔ StandsAt log P position := by
  rw [standsAt_concat, or_iff_left fun last => fails last.2]

theorem StandsAt.lt {P : StoreOperation × StoreAnswer → Prop} (stands : StandsAt log P position) :
    position < log.length := by
  obtain ⟨_, at_position, _⟩ := stands
  exact (List.getElem?_eq_some_iff.mp at_position).1

theorem not_defines_of_forgets (forgets : Forgets name step) (other : String) :
    ¬Defines other step := by
  obtain ⟨word, rfl⟩ := forgets
  rintro ⟨now, definition, same⟩
  cases same

theorem not_definedAt_of_forgottenAt (forgotten : ForgottenAt log name position) :
    ¬DefinedAt log name position := by
  obtain ⟨step, at_position, forgets⟩ := forgotten
  rintro ⟨other, at_position', defines⟩
  rw [at_position, Option.some.injEq] at at_position'
  subst at_position'
  exact not_defines_of_forgets forgets name defines

/-- A name that is not introduced was forgotten after each of its definitions. Otherwise the
first definition without a forgetting after it would be its introduction. -/
theorem exists_forgottenAt (absent : ∀ position, ¬IntroducedAt log name position) :
    ∀ position, DefinedAt log name position →
      ∃ later, position < later ∧ ForgottenAt log name later := by
  intro position
  induction position using Nat.strongRecOn with
  | _ position ih =>
      intro defined
      by_contra last
      simp only [not_exists, not_and] at last
      refine absent position ⟨defined, last, fun earlier before defined_earlier => ?_⟩
      obtain ⟨later, after, forgotten⟩ := ih earlier before defined_earlier
      refine ⟨later, after, ?_, forgotten⟩
      rcases Nat.lt_trichotomy later position with between | rfl | beyond
      · exact between
      · exact (not_definedAt_of_forgottenAt forgotten defined).elim
      · exact (last later beyond forgotten).elim

/-! ### One more step -/

/-- A step that neither defines nor forgets a name leaves its introduction. -/
theorem introducedAt_concat_of_other (undefined : ¬Defines name step)
    (unforgotten : ¬Forgets name step) :
    IntroducedAt (log ++ [step]) name position ↔ IntroducedAt log name position := by
  have same_defined : ∀ p, DefinedAt (log ++ [step]) name p ↔ DefinedAt log name p :=
    fun _ => standsAt_concat_of_not undefined
  have same_forgotten : ∀ p, ForgottenAt (log ++ [step]) name p ↔ ForgottenAt log name p :=
    fun _ => standsAt_concat_of_not unforgotten
  constructor
  · rintro ⟨defined, kept, first⟩
    simp only [same_defined, same_forgotten] at defined kept first
    exact ⟨defined, kept, first⟩
  · rintro ⟨defined, kept, first⟩
    simp only [← same_defined, ← same_forgotten] at defined kept first
    exact ⟨defined, kept, first⟩

/-- Other names than the one that a step defines or forgets keep their introductions. -/
theorem introducedAt_concat_of_ne {other : String}
    (changes : Defines name step ∨ Forgets name step) (apart : other ≠ name) :
    IntroducedAt (log ++ [step]) other position ↔ IntroducedAt log other position := by
  apply introducedAt_concat_of_other
  · rintro ⟨now, definition, rfl⟩
    rcases changes with ⟨_, _, same⟩ | ⟨_, same⟩
    · cases same
      exact apart rfl
    · cases same
  · rintro ⟨word, rfl⟩
    rcases changes with ⟨_, _, same⟩ | ⟨_, same⟩
    · cases same
    · cases same
      exact apart rfl

/-- A name that was just forgotten is not introduced. -/
theorem not_introducedAt_concat_of_forgets (forgets : Forgets name step) :
    ¬IntroducedAt (log ++ [step]) name position := by
  intro introduced
  have last : ForgottenAt (log ++ [step]) name log.length :=
    standsAt_concat.mpr (.inr ⟨rfl, forgets⟩)
  rcases standsAt_concat.mp introduced.defined with defined | ⟨_, defines⟩
  · exact introduced.kept _ defined.lt last
  · exact not_defines_of_forgets forgets name defines

/-- A definition introduces its name unless the name is introduced already. -/
theorem introducedAt_concat_of_defines (defines : Defines name step) :
    IntroducedAt (log ++ [step]) name position ↔
      IntroducedAt log name position ∨
        position = log.length ∧ ∀ other, ¬IntroducedAt log name other := by
  have unforgotten : ¬Forgets name step := fun forgets =>
    not_defines_of_forgets forgets name defines
  have same_forgotten : ∀ p, ForgottenAt (log ++ [step]) name p ↔ ForgottenAt log name p :=
    fun _ => standsAt_concat_of_not unforgotten
  have earlier_defined : ∀ p, p < log.length →
      (DefinedAt (log ++ [step]) name p ↔ DefinedAt log name p) := by
    intro p inside
    exact standsAt_concat.trans (or_iff_left fun last => Nat.ne_of_lt inside last.1)
  constructor
  · rintro ⟨defined, kept, first⟩
    simp only [same_forgotten] at kept first
    rcases standsAt_concat.mp defined with known | ⟨rfl, _⟩
    · refine .inl ⟨known, kept, fun earlier before defined_earlier => ?_⟩
      have inside : earlier < log.length := Nat.lt_trans before known.lt
      exact first earlier before ((earlier_defined earlier inside).mpr defined_earlier)
    · refine .inr ⟨rfl, fun other introduced => ?_⟩
      have inside := introduced.defined.lt
      obtain ⟨between, after, _, forgotten⟩ :=
        first other inside ((earlier_defined other inside).mpr introduced.defined)
      exact introduced.kept between after forgotten
  · rintro (⟨defined, kept, first⟩ | ⟨rfl, absent⟩)
    · refine ⟨standsAt_concat.mpr (.inl defined), by simpa only [same_forgotten] using kept, ?_⟩
      intro earlier before defined_earlier
      have inside : earlier < log.length := Nat.lt_trans before defined.lt
      simp only [same_forgotten]
      exact first earlier before ((earlier_defined earlier inside).mp defined_earlier)
    · refine ⟨standsAt_concat.mpr (.inr ⟨rfl, defines⟩), fun later after forgotten => ?_, ?_⟩
      · exact Nat.lt_asymm after ((same_forgotten later).mp forgotten).lt
      · intro earlier inside defined_earlier
        obtain ⟨later, after, forgotten⟩ := exists_forgottenAt absent earlier
          ((earlier_defined earlier inside).mp defined_earlier)
        exact ⟨later, after, forgotten.lt, (same_forgotten later).mpr forgotten⟩

namespace Lists

variable {names : List String}

/-- A step that neither defines nor forgets keeps the names. -/
theorem other (lists : Lists log names) (undefined : ∀ name, ¬Defines name step)
    (unforgotten : ∀ name, ¬Forgets name step) : Lists (log ++ [step]) names where
  known name := by
    simp only [introducedAt_concat_of_other (undefined name) (unforgotten name)]
    exact lists.known name
  ordered := by
    refine lists.ordered.imp fun before i j => ?_
    rw [introducedAt_concat_of_other (undefined _) (unforgotten _),
      introducedAt_concat_of_other (undefined _) (unforgotten _)]
    exact before i j

/-- A definition of a known name keeps the names, and one of a new name puts it last. -/
theorem define (lists : Lists log names) {name : String} (defines : Defines name step) :
    Lists (log ++ [step]) (if name ∈ names then names else names ++ [name]) := by
  split
  · next known =>
      obtain ⟨position, introduced⟩ := (lists.known name).mp known
      have same : ∀ a i, IntroducedAt (log ++ [step]) a i ↔ IntroducedAt log a i := by
        intro a i
        by_cases apart : a = name
        · subst apart
          rw [introducedAt_concat_of_defines defines, or_iff_left]
          exact fun absent => absent.2 position introduced
        · exact introducedAt_concat_of_ne (.inl defines) apart
      constructor
      · simpa only [same] using lists.known
      · simpa only [same] using lists.ordered
  · next fresh =>
      have absent : ∀ position, ¬IntroducedAt log name position := fun position introduced =>
        fresh ((lists.known name).mpr ⟨position, introduced⟩)
      have last : ∀ i, IntroducedAt (log ++ [step]) name i ↔ i = log.length := by
        intro i
        rw [introducedAt_concat_of_defines defines, or_iff_right (absent i)]
        exact and_iff_left absent
      constructor
      · intro a
        rw [List.mem_append, List.mem_singleton]
        by_cases apart : a = name
        · subst apart
          simp only [last, or_true, exists_eq]
        · simp only [introducedAt_concat_of_ne (.inl defines) apart, or_iff_left apart]
          exact lists.known a
      · refine List.pairwise_append.mpr ⟨?_, List.pairwise_singleton _ _, ?_⟩
        · refine lists.ordered.imp_of_mem fun {a b} member member' before i j => ?_
          rw [introducedAt_concat_of_ne (.inl defines) fun same => fresh (same ▸ member),
            introducedAt_concat_of_ne (.inl defines) fun same => fresh (same ▸ member')]
          exact before i j
        · intro a member b single i j introduced introduced'
          rw [List.mem_singleton] at single
          subst single
          rw [introducedAt_concat_of_ne (.inl defines) fun same => fresh (same ▸ member)]
            at introduced
          rw [(last j).mp introduced']
          exact introduced.defined.lt

/-- Forgetting a name takes it away. -/
theorem forget (lists : Lists log names) {name : String} (forgets : Forgets name step) :
    Lists (log ++ [step]) (names.filter (· != name)) := by
  constructor
  · intro a
    rw [List.mem_filter]
    by_cases apart : a = name
    · subst apart
      simp [not_introducedAt_concat_of_forgets forgets]
    · simp only [introducedAt_concat_of_ne (.inr forgets) apart, bne_iff_ne.mpr apart, and_true]
      exact lists.known a
  · refine (lists.ordered.filter _).imp_of_mem fun {a b} member member' before i j => ?_
    rw [introducedAt_concat_of_ne (.inr forgets) (bne_iff_ne.mp (List.mem_filter.mp member).2),
      introducedAt_concat_of_ne (.inr forgets) (bne_iff_ne.mp (List.mem_filter.mp member').2)]
    exact before i j

end Lists

end StoreLog

/-! ## What one operation leaves alone -/

namespace Dictionary

/-- What the operations on a dictionary leave alone: a failed one leaves everything, and a
successful definition, forgetting or use of a name leaves the other words and the order of
the other names. A redefinition keeps the place of its name. -/
structure Frames (d : Dictionary) : Prop where
  failed : ∀ {operation error after}, operations.perform d operation = (.error error, after) →
    after = d
  define : ∀ {now name definition after},
    operations.perform d (.define now name definition) = (.done, after) →
      after.contains name = true ∧
        (∀ other, other ≠ name → after.find? other = d.find? other) ∧
        after.names.filter (· != name) = d.names.filter (· != name) ∧
        (d.contains name = true → after.names = d.names)
  forget : ∀ {name word after}, operations.perform d (.forget name) = (.word word, after) →
    d.find? name = some word ∧ after.contains name = false ∧
      (∀ other, other ≠ name → after.find? other = d.find? other) ∧
      after.names = d.names.filter (· != name)
  resolve : ∀ {name body after}, operations.perform d (.resolve name) = (.body body, after) →
    after.names = d.names ∧ ∀ other, other ≠ name → after.find? other = d.find? other
  duplicate : ∀ now, operations.perform d (.duplicate now) = (.done, d)

/-- An operation that fails leaves the dictionary as it was. -/
theorem WellNamed.eq_of_perform_error {d after : Dictionary} (named : d.WellNamed)
    {operation : StoreOperation} {error : Error}
    (performed : operations.perform d operation = (.error error, after)) : after = d := by
  cases operation with
  | define now name definition =>
      obtain ⟨_, failed⟩ | ⟨_, defined⟩ := perform_define d now name definition
      · rw [failed] at performed
        exact (Prod.mk.inj performed).2.symm
      · rw [defined] at performed
        cases performed
  | forget name =>
      obtain ⟨_, failed⟩ | ⟨_, _, _, forgotten⟩ := perform_forget d name
      · rw [failed] at performed
        exact (Prod.mk.inj performed).2.symm
      · rw [forgotten] at performed
        cases performed
  | resolve name =>
      obtain missing | ⟨_, _, _, resolved⟩ := perform_resolve d name
      · rw [missing] at performed
        cases performed
      · rw [resolved] at performed
        cases performed
  | duplicate now =>
      rw [named.perform_duplicate] at performed
      cases performed

theorem WellNamed.frames {d : Dictionary} (named : d.WellNamed) : d.Frames where
  failed := named.eq_of_perform_error
  define {now name definition after} performed := by
    obtain ⟨_, failed⟩ | ⟨_, defined⟩ := perform_define d now name definition
    · rw [failed] at performed
      cases performed
    · rw [defined] at performed
      obtain ⟨_, rfl⟩ := Prod.mk.inj performed
      simp only [contains, find?_afterDefine, names_afterDefine]
      refine ⟨by simp, fun other apart => if_neg apart, ?_, fun known => ?_⟩
      · split
        · rfl
        · simp
      · rw [if_pos (find?_isSome_iff.mp known)]
  forget {name word after} performed := by
    obtain ⟨_, failed⟩ | ⟨_, _, forgotten, left⟩ := perform_forget d name
    · rw [failed] at performed
      cases performed
    · rw [left] at performed
      cases performed
      obtain ⟨present, _, rfl⟩ := forget_ok_iff.mp forgotten
      refine ⟨present, ?_, fun other apart => find?_filter_ne d apart, names_filter_ne d name⟩
      rw [contains, Option.isSome_eq_false_iff, Option.isNone_iff_eq_none, find?_eq_none_iff,
        names_filter_ne]
      simp
  resolve {name body after} performed := by
    obtain missing | ⟨_, next, resolved, counted⟩ := perform_resolve d name
    · rw [missing] at performed
      cases performed
    · rw [counted] at performed
      obtain ⟨_, rfl⟩ := Prod.mk.inj performed
      refine ⟨names_resolve resolved, fun other apart => ?_⟩
      rw [find?_resolve resolved]
      cases present : d.find? other with
      | none => rfl
      | some w => simp [name_of_find? present, apart]
  duplicate := named.perform_duplicate

/-- The ordered map of a dictionary fails where the dictionary does, and changes as little. -/
theorem WellNamed.keptByFailure_view {d : Dictionary} (named : d.WellNamed) :
    d.view.KeptByFailure := by
  intro operation error after performed
  rw [named.perform_view] at performed
  obtain ⟨answered, rfl⟩ := Prod.mk.inj performed
  have failed : operations.perform d operation =
      (.error error, (operations.perform d operation).2) := Prod.ext answered rfl
  exact congrArg view (named.eq_of_perform_error failed)

/-! ## Runs -/

/-- One operation keeps a dictionary and its log in step. -/
theorem WellNamed.lists_perform {d : Dictionary} (named : d.WellNamed) {log : StoreLog}
    (lists : log.Lists d.names) (operation : StoreOperation) :
    StoreLog.Lists (log ++ [(operation, (operations.perform d operation).1)])
      (operations.perform d operation).2.names := by
  -- A step that is no successful definition or forgetting is told from one by its answer.
  cases operation with
  | define now name definition =>
      obtain ⟨_, performed⟩ | ⟨_, performed⟩ := perform_define d now name definition
      · rw [performed]
        exact lists.other (fun _ ⟨_, _, same⟩ => nomatch same) fun _ ⟨_, same⟩ => nomatch same
      · rw [performed, names_afterDefine]
        exact lists.define ⟨now, definition, rfl⟩
  | forget name =>
      obtain ⟨_, performed⟩ | ⟨word, _, forgotten, performed⟩ := perform_forget d name
      · rw [performed]
        exact lists.other (fun _ ⟨_, _, same⟩ => nomatch same) fun _ ⟨_, same⟩ => nomatch same
      · obtain ⟨_, _, rfl⟩ := forget_ok_iff.mp forgotten
        rw [performed, names_filter_ne]
        exact lists.forget ⟨word, rfl⟩
  | resolve name =>
      have kept : (operations.perform d (.resolve name)).2.names = d.names := by
        obtain performed | ⟨_, _, resolved, performed⟩ := perform_resolve d name
        · rw [performed]
        · rw [performed, names_resolve resolved]
      rw [kept]
      exact lists.other (fun _ ⟨_, _, same⟩ => nomatch same) fun _ ⟨_, same⟩ => nomatch same
  | duplicate now =>
      rw [named.perform_duplicate]
      exact lists.other (fun _ ⟨_, _, same⟩ => nomatch same) fun _ ⟨_, same⟩ => nomatch same

theorem lists_performAll (limit : Nat) (sequence : List StoreOperation) :
    (operations.performAll (empty limit) sequence).1.Lists
      (operations.performAll (empty limit) sequence).2.names := by
  induction sequence using List.reverseRecOn with
  | nil =>
      refine ⟨fun name => iff_of_false List.not_mem_nil ?_, .nil⟩
      rintro ⟨position, introduced⟩
      exact Nat.not_lt_zero position introduced.defined.lt
  | append_singleton before operation ih =>
      rw [WordStore.performAll_concat]
      exact (wellNamed_performAll limit before).lists_perform ih operation

/-- **A dictionary is an ordered map.** After every sequence of operations, successful or
not, an ordered map has given the same answers; its table and its order agree, and a failed
operation changes neither; every way to read the dictionary shows them; the names stand in the
order of their introduction; and what the next operation leaves alone is as stated. -/
theorem refines_orderedMap (limit : Nat) (sequence : List StoreOperation) :
    let (log, d) := operations.performAll (empty limit) sequence
    let (log', t) := OrderedMap.operations.performAll (.empty limit) sequence
    log = log' ∧ t.Valid ∧ t.KeptByFailure ∧ d.Shows t ∧ log.Lists d.names ∧ d.Frames := by
  have named := wellNamed_performAll limit sequence
  rw [performAll_view]
  exact ⟨rfl, named.valid_view, named.keptByFailure_view, named.shows_view,
    lists_performAll limit sequence, named.frames⟩

end Dictionary

end WordMachine
