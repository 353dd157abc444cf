import WordMachine.Proofs.Library
import WordMachine.Proofs.Machine.History

/-! # Restores and the words of a library

A snapshot stores words of users only, but a restore asks of a word that stands in its way whether
it is protected, and not of which category it is. Words of the categories `CORE` and `STANDARD` are
thus safe from a restore by their protection; one that a host defined without it gives way to a
stored word of its name, and its successor is a word of the user.
-/

namespace WordMachine

namespace Dictionary

@[simp]
theorem wordDefined_category (d : Dictionary) (now : Instant) (name : String)
    (definition : Definition) :
    (d.wordDefined now name definition).category = definition.category := by
  unfold wordDefined
  split <;> rfl

end Dictionary

namespace Snapshot

theorem Defines.category {w : StoredWord} {p : String × Definition} (defines : Defines w p) :
    p.2.category = .user := by
  obtain ⟨tokens, history, _, _, rfl⟩ := defines
  rfl

theorem category_of_defines {words : List StoredWord} {definitions : List (String × Definition)}
    (defined : List.Forall₂ Defines words definitions) :
    ∀ p ∈ definitions, p.2.category = .user := by
  induction defined with
  | nil => simp
  | cons defines _ ih => simpa [defines.category] using ih

end Snapshot

namespace Machine

open Snapshot

section Succeeds

variable {m : Machine} {s : Snapshot} (succeeds : (m.restore s).error = none)

include succeeds

/-- A successful restore has made the definitions that the stored words stand for. -/
theorem exists_definitions_of_restore :
    ∃ definitions, List.Forall₂ Defines (compiledWords s.dictionary) definitions ∧
      m.restore s = (m.afterRestore s.stack definitions).done := by
  obtain ⟨error, failed⟩ | ⟨definitions, _, _, read, restored⟩ := restore_cases m s
  · rw [failed] at succeeds
    cases succeeds
  · exact ⟨definitions, (readWords_ok_iff.mp read).2, restored⟩

/-- All names stay in their places. -/
theorem names_prefix_restore :
    m.dictionary.names <+: (m.restore s).machine.dictionary.names := by
  obtain ⟨definitions, defined, restored⟩ := exists_definitions_of_restore succeeds
  rw [restored]
  exact ⟨_, (restored_afterRestore m s defined).names.symm⟩

/-- Under the name of a stored word with a body of its own there is an unprotected word of the
user. -/
theorem find?_restore_of_stored {name : String}
    (stored : name ∈ (compiledWords s.dictionary).map StoredWord.name) :
    ∃ later, (m.restore s).machine.dictionary.find? name = some later ∧
      later.category = .user ∧ later.isProtected = false := by
  obtain ⟨definitions, defined, restored⟩ := exists_definitions_of_restore succeeds
  rw [← names_of_defines defined] at stored
  obtain ⟨first, p, rest, split, _, _, found⟩ :=
    Dictionary.find?_afterDefines_of_mem m.dictionary m.clock definitions stored
  have member : p ∈ definitions := by
    rw [split]
    exact List.mem_append_right _ List.mem_cons_self
  rw [restored]
  refine ⟨_, found, ?_, ?_⟩
  · rw [Dictionary.wordDefined_category, category_of_defines defined p member]
  · rw [Dictionary.wordDefined_isProtected, isProtected_of_defines defined p member]

/-- The word of every other name is as it was. -/
theorem find?_restore_of_not_stored {name : String}
    (absent : name ∉ (compiledWords s.dictionary).map StoredWord.name) :
    (m.restore s).machine.dictionary.find? name = m.dictionary.find? name := by
  obtain ⟨definitions, defined, restored⟩ := exists_definitions_of_restore succeeds
  rw [restored]
  exact (restored_afterRestore m s defined).unnamed name absent

/-- No stored word with a body of its own has the name of a protected word. -/
theorem unprotected_of_stored {name : String}
    (stored : name ∈ (compiledWords s.dictionary).map StoredWord.name) {w : Word}
    (found : m.dictionary.find? name = some w) : w.isProtected = false := by
  obtain ⟨entry, member, rfl⟩ := List.mem_map.mp stored
  have free := ((restore_error_eq_none_iff.mp succeeds).2.2 entry member).unprotected
  rwa [Dictionary.protects, found, Option.any_some] at free

end Succeeds

/-- **A restore spares the words of a library.** A successful restore leaves every name in its
place. It leaves a word of a category other than `USER` exactly as it was unless the word is
unprotected and a stored word with a body of its own has its name; such a word becomes an
unprotected word of the user. -/
theorem find?_restore_eq_iff {m : Machine} {s : Snapshot} (succeeds : (m.restore s).error = none)
    {name : String} {w : Word} (found : m.dictionary.find? name = some w)
    (apart : w.category ≠ .user) :
    m.dictionary.names <+: (m.restore s).machine.dictionary.names ∧
      ∃ later, (m.restore s).machine.dictionary.find? name = some later ∧
        (later = w ↔
          ¬(w.isProtected = false ∧ name ∈ (compiledWords s.dictionary).map StoredWord.name)) ∧
        (later = w ∨ later.category = .user ∧ later.isProtected = false) := by
  refine ⟨names_prefix_restore succeeds, ?_⟩
  by_cases stored : name ∈ (compiledWords s.dictionary).map StoredWord.name
  · obtain ⟨later, replaced, user, unprotected⟩ := find?_restore_of_stored succeeds stored
    have changed : later ≠ w := by
      rintro rfl
      exact apart user
    have gives_way := unprotected_of_stored succeeds stored found
    exact ⟨later, replaced, iff_of_false changed (not_not.mpr ⟨gives_way, stored⟩),
      .inr ⟨user, unprotected⟩⟩
  · have kept := (find?_restore_of_not_stored succeeds stored).trans found
    exact ⟨w, kept, iff_of_true rfl fun ⟨_, present⟩ => stored present, .inl rfl⟩

/-- A snapshot with a word of its own and a native entry named `DUP` leaves the library's `DUP`. -/
theorem find?_restore_eq_iff_of_library :
    let m := Library.bootstrapped 0 .default .millennium
    let s : Snapshot :=
      ⟨currentVersion, .millennium, [.nil],
        [⟨"DUP", "( -- )", nativeSentinel, false, .millennium, 0, [], none⟩,
          ⟨"X", "( -- )", "[\"DUP\"]", false, .millennium, 0, [], none⟩], none, none⟩
    (m.restore s).error = none ∧ ∃ w, m.dictionary.find? "DUP" = some w ∧ w.category = .core ∧
      (m.restore s).machine.dictionary.find? "DUP" = some w := by
  intro m s
  have succeeds : (m.restore s).error = none := by decide +kernel
  have known : (m.dictionary.find? "DUP").map Word.category = some .core := by decide +kernel
  obtain ⟨w, found, core⟩ := Option.map_eq_some_iff.mp known
  have apart : w.category ≠ .user := by
    rw [core]
    decide
  have absent : "DUP" ∉ (compiledWords s.dictionary).map StoredWord.name := by decide
  obtain ⟨_, later, left, same_iff, _⟩ := find?_restore_eq_iff succeeds found apart
  have same : later = w := same_iff.mpr fun ⟨_, stored⟩ => absent stored
  exact ⟨succeeds, w, found, core, same ▸ left⟩

/-- A host's unprotected `CORE` word gives way to a stored word of its name. -/
theorem find?_restore_ne_of_unprotected :
    let s : Snapshot :=
      ⟨currentVersion, .millennium, [],
        [⟨"X", "( -- )", "[\"2\"]", false, .millennium, 0, [], none⟩], none, none⟩
    ∃ m w, Reachable .default m ∧ m.dictionary.find? "X" = some w ∧ w.category = .core ∧
      (m.restore s).error = none ∧ (m.restore s).machine.dictionary.find? "X" ≠ some w := by
  intro s
  let definition : Definition := { body := .compiled ["1"], category := .core }
  let m := ((ofConfig .default .millennium).define "X" definition).machine
  have reaches : Reachable .default m :=
    (Reachable.initial .millennium).step (.define "X" definition) rfl
  have known : (m.dictionary.find? "X").map Word.category = some .core := by decide +kernel
  obtain ⟨w, found, core⟩ := Option.map_eq_some_iff.mp known
  refine ⟨m, w, reaches, found, core, by decide +kernel, fun kept => ?_⟩
  have later : ((m.restore s).machine.dictionary.find? "X").map Word.category = some .user := by
    decide +kernel
  rw [kept, Option.map_some, core] at later
  cases later

end Machine

end WordMachine
