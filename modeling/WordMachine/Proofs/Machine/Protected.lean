import WordMachine.Proofs.Machine.Uses

/-! # Protected words are permanent

A protected word can be neither redefined nor forgotten, and a use only counts. So what a host does
to a machine, also through native words, loads and restores, leaves every protected word where it
stands and as it is but for its uses. These are counted modulo `2 ^ 64`: the count does not become
less, unless it begins again at zero.
-/

namespace WordMachine

/-- A word as it was and as it is after some uses: nothing but their count has changed, and that has
grown by as many, modulo `2 ^ 64`. -/
structure Word.UsedSince (uses : Nat) (earlier later : Word) : Prop where
  same : later = { earlier with usage := later.usage }
  counted : later.usage.toNat = (earlier.usage.toNat + uses) % UInt64.size

namespace Word.UsedSince

variable {uses : Nat} {earlier later : Word}

/-- A word is its own later state. -/
theorem refl (w : Word) : w.UsedSince 0 w where
  same := by cases w; rfl
  counted := (Nat.mod_eq_of_lt w.usage.toNat_lt).symm

/-- The later word is as protected as the earlier one. -/
theorem isProtected (since : earlier.UsedSince uses later) :
    later.isProtected = earlier.isProtected := by
  rw [since.same]

/-- One more use is counted. -/
theorem used (since : earlier.UsedSince uses later) :
    earlier.UsedSince (uses + 1) later.used where
  same := by
    rw [Word.used, since.same]
  counted := by
    rw [Word.used, UInt64.toNat_add, since.counted, Nat.mod_add_mod, Nat.add_assoc]
    rfl

/-- The count does not become less, unless it begins again at zero. -/
theorem le_usage (since : earlier.UsedSince uses later)
    (room : earlier.usage.toNat + uses < UInt64.size) : earlier.usage ≤ later.usage := by
  rw [UInt64.le_iff_toNat_le, since.counted, Nat.mod_eq_of_lt room]
  exact Nat.le_add_right _ uses

end Word.UsedSince

namespace Dictionary

/-- The protected words of a dictionary last in a later one, after the words of some names were
used. Of the earlier names, those that are left stand first and in their order, the protected ones
among them, and new names follow. -/
structure Endures (uses : List String) (before after : Dictionary) : Prop where
  order : ∃ left new, after.names = left ++ new ∧ left.Sublist before.names ∧
    ∀ w ∈ before.words, w.isProtected = true → w.name ∈ left
  words : ∀ w ∈ before.words, w.isProtected = true →
    ∃ later, after.find? w.name = some later ∧ w.UsedSince (uses.count w.name) later

namespace Endures

variable {uses : List String} {before d next : Dictionary}

/-- A dictionary endures itself without uses. -/
theorem refl (named : d.WellNamed) : d.Endures [] d where
  order :=
    ⟨d.names, [], by rw [List.append_nil], .refl _, fun _ member _ => List.mem_map_of_mem member⟩
  words w member _ := ⟨w, find?_of_mem named.distinct member, .refl w⟩

/-- A name stays protected. -/
theorem protects (endures : before.Endures uses d) {w : Word} (member : w ∈ before.words)
    (guarded : w.isProtected = true) : d.protects w.name = true := by
  obtain ⟨later, found, since⟩ := endures.words w member guarded
  rw [Dictionary.protects, found, Option.any_some, since.isProtected, guarded]

/-- The name of a protected word is not one that is open to change. -/
theorem ne_of_open (endures : before.Endures uses d) {w : Word} (member : w ∈ before.words)
    (guarded : w.isProtected = true) {name : String} (open_name : d.protects name = false) :
    w.name ≠ name := by
  rintro rfl
  exact Bool.false_ne_true (open_name.symm.trans (endures.protects member guarded))

/-- A definition leaves the words under protected names alone, since it fails on these. -/
theorem define (endures : before.Endures uses d) {now : Instant} {name : String}
    {definition : Definition} (defined : d.define now name definition = .ok next) :
    before.Endures uses next := by
  obtain ⟨_, open_name, rfl⟩ := define_ok_iff.mp defined
  constructor
  · obtain ⟨left, new, names, sublist, inside⟩ := endures.order
    rw [names_afterDefine]
    split
    · exact ⟨left, new, names, sublist, inside⟩
    · exact ⟨left, new ++ [name], by rw [names, List.append_assoc], sublist, inside⟩
  · intro w member guarded
    rw [find?_afterDefine, if_neg (endures.ne_of_open member guarded open_name)]
    exact endures.words w member guarded

/-- Forgetting leaves the words under protected names and their order alone. -/
theorem forget (endures : before.Endures uses d) {name : String} {word : Word}
    (forgotten : d.forget name = .ok (word, next)) : before.Endures uses next := by
  obtain ⟨found, unguarded, rfl⟩ := forget_ok_iff.mp forgotten
  have open_name : d.protects name = false := by
    rw [Dictionary.protects, found, Option.any_some, unguarded]
  constructor
  · obtain ⟨left, new, names, sublist, inside⟩ := endures.order
    refine ⟨left.filter (· != name), new.filter (· != name), ?_,
      List.filter_sublist.trans sublist, fun w member guarded => ?_⟩
    · rw [names_filter_ne, names, List.filter_append]
    · have apart := endures.ne_of_open member guarded open_name
      exact List.mem_filter.mpr ⟨inside w member guarded, by simpa using apart⟩
  · intro w member guarded
    rw [find?_filter_ne d (endures.ne_of_open member guarded open_name)]
    exact endures.words w member guarded

/-- A use is counted in the word of its name and in no other. -/
theorem counted (endures : before.Endures uses d) (name : String) :
    before.Endures (uses ++ [name]) (d.counted name) := by
  constructor
  · rw [names_counted]
    exact endures.order
  · intro w member guarded
    obtain ⟨later, found, since⟩ := endures.words w member guarded
    have later_name : later.name = w.name := by rw [since.same]
    rw [find?_counted, found, Option.map_some, List.count_append, List.count_singleton, later_name]
    by_cases used : w.name = name
    · simp only [used, beq_self_eq_true, ↓reduceIte]
      exact ⟨later.used, rfl, used ▸ since.used⟩
    · have apart : (name == w.name) = false := beq_false_of_ne (Ne.symm used)
      have apart_later : (w.name == name) = false := beq_false_of_ne used
      simp only [apart, apart_later, Bool.false_eq_true, ↓reduceIte, Nat.add_zero]
      exact ⟨later, rfl, since⟩

end Endures

end Dictionary

namespace Machine

/-- All that a host does keeps the protected words of an earlier dictionary and counts their
uses. -/
theorem usesInvariant_endures (before : Dictionary) :
    UsesInvariant fun uses d => d.WellNamed ∧ before.Endures uses d where
  define holds defined := ⟨holds.1.define defined, holds.2.define defined⟩
  forget holds forgotten := ⟨holds.1.forget forgotten, holds.2.forget forgotten⟩
  counted holds name := ⟨holds.1.counted name, holds.2.counted name⟩

/-- A protected word is not redefined. -/
theorem define_of_protects {m : Machine} {name : String} (nonempty : name ≠ "")
    (guarded : m.dictionary.protects name = true) (definition : Definition) :
    m.define name definition = m.failed (.protectedWord name) := by
  rw [define, Dictionary.define_eq, if_neg nonempty, if_pos guarded]

/-- A protected word is not forgotten. -/
theorem forget_of_protects {m : Machine} {name : String}
    (guarded : m.dictionary.protects name = true) :
    m.forget name = m.failed (.protectedWord name) := by
  rw [forget, Dictionary.forget_of_protects guarded]

/-- What a machine whose native words are its own does is a step of a host. -/
theorem HostStep.own {m next : Machine} (operation : HostOperation)
    (performed : m.perform operation = some next) : HostStep m next := by
  rw [← Natives.perform_own, ← Natives.ofPrograms_own] at performed
  exact .operation editsDictionary_own operation performed

end Machine

end WordMachine
