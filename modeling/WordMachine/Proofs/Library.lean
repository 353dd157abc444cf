import WordMachine.Library
import WordMachine.Proofs.Dictionary

/-! # What installing the library leaves

The names of the library are distinct and none is empty, so the whole library can be
installed in a machine without words. It leaves its words in order, each of them native,
protected and of a category of the library.
-/

namespace WordMachine

namespace Machine

/-- Definitions of distinct new names succeed one after the other and put their words
last. -/
theorem defineAll_of_fresh (m : Machine) (definitions : List (String × Definition))
    (named : ∀ p ∈ definitions, p.1 ≠ "") (distinct : (definitions.map Prod.fst).Nodup)
    (fresh : ∀ p ∈ definitions, p.1 ∉ m.dictionary.names) :
    m.defineAll definitions =
      { m with dictionary := m.dictionary.afterDefines m.clock definitions }.done := by
  induction definitions generalizing m with
  | nil => rfl
  | cons p rest ih =>
      obtain ⟨name, definition⟩ := p
      rw [List.forall_mem_cons] at named fresh
      rw [List.map_cons, List.nodup_cons] at distinct
      have free : m.dictionary.protects name = false := by
        rw [Dictionary.protects, Dictionary.find?_eq_none_iff.mpr fresh.1]
        rfl
      have defined : m.dictionary.define m.clock name definition =
          .ok (m.dictionary.afterDefine m.clock name definition) :=
        Dictionary.define_ok_iff.mpr ⟨named.1, free, rfl⟩
      simp only [defineAll, defined]
      apply ih _ named.2 distinct.2
      intro q member
      rw [Dictionary.names_afterDefine, if_neg fresh.1, List.mem_append, List.mem_singleton, not_or]
      refine ⟨fresh.2 q member, fun same => distinct.1 ?_⟩
      exact List.mem_map.mpr ⟨q, member, same⟩

/-- Definitions of distinct names in a machine without words leave their words in order. -/
theorem defineAll_ofConfig (config : Config) (clock : Instant)
    (definitions : List (String × Definition)) (named : ∀ p ∈ definitions, p.1 ≠ "")
    (distinct : (definitions.map Prod.fst).Nodup) :
    (ofConfig config clock).defineAll definitions =
      { ofConfig config clock with
        dictionary :=
          ⟨definitions.map fun (p : String × Definition) => p.2.toWord p.1 clock,
            config.historyLimit⟩ }.done := by
  have fresh : ∀ p ∈ definitions, p.1 ∉ (ofConfig config clock).dictionary.names :=
    fun _ _ => List.not_mem_nil
  have left : (ofConfig config clock).dictionary.afterDefines clock definitions =
      ⟨definitions.map fun p => p.2.toWord p.1 clock, config.historyLimit⟩ :=
    Eq.mpr (Dictionary.mk.injEq ..)
      ⟨Dictionary.words_afterDefines_of_fresh _ clock _ distinct fresh,
        Dictionary.afterDefines_historyLimit _ _ _⟩
  rw [defineAll_of_fresh _ _ named distinct fresh, ← left]
  rfl

end Machine

namespace Library

/-- A library word: native, protected and not a user's. -/
structure IsLibrary (w : Word) : Prop where
  isProtected : w.isProtected = true
  category : w.category ≠ .user
  native : ∃ native, w.body = .native native

theorem isLibrary_toWord_definition {category : Category} (apart : category ≠ .user)
    (effect documentation : String) (native : Native) (name : String) (now : Instant) :
    IsLibrary ((definition category effect documentation native).toWord name now) :=
  ⟨rfl, apart, native, rfl⟩

/-- What is defined when the library is installed is a library word. -/
theorem isLibrary_of_mem_words {identity : Nat} {parts : List Part} {p : String × Definition}
    (member : p ∈ words identity parts) (now : Instant) : IsLibrary (p.2.toWord p.1 now) := by
  obtain ⟨part, _, defined⟩ := List.mem_flatMap.mp member
  cases part with
  | core =>
      obtain ⟨index, _, rfl⟩ := List.mem_mapIdx.mp defined
      exact isLibrary_toWord_definition (by decide) _ _ _ _ _
  | console =>
      obtain ⟨index, _, rfl⟩ := List.mem_mapIdx.mp defined
      exact isLibrary_toWord_definition (by decide) _ _ _ _ _

/-- The full library has the core words and then the console words. -/
theorem names_words_full (identity : Nat) :
    (words identity full).map Prod.fst =
      CoreWord.all.map CoreWord.name ++ ConsoleWord.all.map ConsoleWord.name := by
  simp only [words, full, coreWords, consoleWords, List.flatMap_cons, List.flatMap_nil,
    List.append_nil, List.map_append, List.mapIdx_eq_zipIdx_map, List.map_map, Function.comp_def]
  rfl

/-- The words that the whole library leaves in a machine without words. -/
def installed (identity : Nat) (clock : Instant) : List Word :=
  (words identity full).map fun p => p.2.toWord p.1 clock

/-- Every installed word is a library word. -/
theorem isLibrary_of_mem_installed {identity : Nat} {clock : Instant} {w : Word}
    (member : w ∈ installed identity clock) : IsLibrary w := by
  rw [installed, List.mem_map] at member
  obtain ⟨p, defined, rfl⟩ := member
  exact isLibrary_of_mem_words defined clock

/-- A machine with the whole library. -/
def bootstrapped (identity : Nat) (config : Config) (clock : Instant) : Machine :=
  { Machine.ofConfig config clock with
    dictionary := ⟨installed identity clock, config.historyLimit⟩ }

-- Not by `rfl`: comparing the two sides would run through the words of the library.
/-- A machine starts with the installed words and no others. -/
theorem words_bootstrapped (identity : Nat) (config : Config) (clock : Instant) :
    (bootstrapped identity config clock).dictionary.words = installed identity clock := by
  rw [bootstrapped]

/-- It lists the core words and then the console words. -/
theorem names_bootstrapped (identity : Nat) (config : Config) (clock : Instant) :
    (bootstrapped identity config clock).dictionary.names =
      CoreWord.all.map CoreWord.name ++ ConsoleWord.all.map ConsoleWord.name := by
  rw [Dictionary.names, words_bootstrapped, installed, List.map_map, ← names_words_full identity]
  rfl

/-- The whole library can be installed in a machine without words. -/
theorem install_full (identity : Nat) (config : Config) (clock : Instant) :
    install identity full (.ofConfig config clock) =
      (bootstrapped identity config clock).done := by
  have distinct : ((words identity full).map Prod.fst).Nodup := by
    rw [names_words_full]
    decide
  have named : ∀ p ∈ words identity full, p.1 ≠ "" := by
    intro p member empty
    have absent : "" ∉ (words identity full).map Prod.fst := by
      rw [names_words_full]
      decide
    exact absent (List.mem_map.mpr ⟨p, member, empty⟩)
  exact Machine.defineAll_ofConfig config clock _ named distinct

/-- Making a machine with the whole library succeeds. -/
theorem machine_ok_iff {config : Config} {clock : Instant} {m : Machine} :
    machine config clock = .ok m ↔ m = bootstrapped 0 config clock := by
  unfold machine
  rw [install_full]
  simp only [Machine.done, Except.ok.injEq, eq_comm]

end Library

end WordMachine
