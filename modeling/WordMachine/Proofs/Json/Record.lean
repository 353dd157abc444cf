import Mathlib.Data.List.Nodup
import WordMachine.Json.Decode
import WordMachine.Json.Writer
import WordMachine.Proofs.Json.RoundTrip

/-! # Records read back

An object that was written with distinct names gives back the value of every name, and an
array gives back its elements if each of them reads back.
-/

namespace WordMachine

namespace Json

/-- A name that was not written names no member. -/
theorem membersNamed_of_notMem {members : List (String × Json)} {name : String}
    (absent : name ∉ members.map Prod.fst) :
    membersNamed name (members.map fun (name, value) => (some name, value)) = [] := by
  rw [membersNamed, List.map_eq_nil_iff, List.filter_eq_nil_iff]
  intro member present
  obtain ⟨written, original, rfl⟩ := List.mem_map.mp present
  intro same
  have named : written.1 = name := by simpa using same
  exact absent (named ▸ List.mem_map_of_mem original)

/-- Among distinct names each one gives its value. -/
theorem member?_of_mem {members : List (String × Json)} (distinct : (members.map Prod.fst).Nodup)
    {name : String} {value : Json} (present : (name, value) ∈ members) :
    member? (members.map fun (name, value) => (some name, value)) name = some (some value) := by
  have named : membersNamed name (members.map fun (name, value) => (some name, value)) =
      [value] := by
    induction members with
    | nil => cases present
    | cons first rest ih =>
        rw [List.map_cons, List.nodup_cons] at distinct
        rw [List.map_cons, membersNamed]
        rcases List.mem_cons.mp present with rfl | later
        · have others := membersNamed_of_notMem distinct.1
          rw [membersNamed] at others
          rw [List.filter_cons_of_pos (by simp), List.map_cons, others]
        · have apart : first.1 ≠ name := fun same =>
            distinct.1 (List.mem_map.mpr ⟨(name, value), later, same.symm⟩)
          rw [List.filter_cons_of_neg (by simpa using apart)]
          exact ih distinct.2 later
  rw [member?, named]

/-- The fields of a written object are its values. -/
theorem fields?_ofMembers {names : List String} {members : List (String × Json)}
    (written : members.map Prod.fst = names) (distinct : names.Nodup) :
    fields? names (ofMembers members) = some (members.map fun member => some member.2) := by
  subst written
  have named : allNamed (members.map fun (name, value) => (some name, value)) = true := by
    simp [allNamed]
  rw [ofMembers, fields?, if_pos named]
  have all : ∀ some_members : List (String × Json), (∀ member ∈ some_members, member ∈ members) →
      (some_members.map Prod.fst).mapM
          (member? (members.map fun (name, value) => (some name, value))) =
        some (some_members.map fun member => some member.2) := by
    intro some_members
    induction some_members with
    | nil => exact fun _ => rfl
    | cons first rest ih =>
        intro present
        rw [List.forall_mem_cons] at present
        rw [List.map_cons, List.mapM_cons, member?_of_mem distinct present.1, ih present.2]
        rfl
  exact all members fun _ => id

/-- An array reads back if each of its elements does. -/
theorem list?_array {α β : Type} {read : Json → Option β} {write : α → Json} {back : α → β}
    {items : List α} (reads : ∀ item ∈ items, read (write item) = some (back item)) :
    list? read (.array (items.map write)) = some (items.map back) := by
  rw [list?]
  induction items with
  | nil => rfl
  | cons first rest ih =>
      rw [List.forall_mem_cons] at reads
      rw [List.map_cons, List.mapM_cons, reads.1, ih reads.2]
      rfl

/-! ## Whole numbers -/

/-- A word of 64 bits reads back from its digits. -/
theorem word64?_ofNat (n : UInt64) : word64? (.ofNat n.toNat) = some n := by
  have all : (Text.digitsOf n.toNat).all Char.isDigit = true :=
    List.all_eq_true.mpr fun _ => Text.isDigit_of_mem_digitsOf
  rw [ofNat, word64?, Text.ofDigits_digitsOf, if_pos ⟨all, n.toNat_lt⟩, UInt64.ofNat_toNat]

/-- A natural number is written in digits that JSON reads. -/
theorem writable_ofNat (n : Nat) : Writable (.ofNat n) := by
  refine .number (.unsigned ⟨Text.digitsOf n, [], [], by simp, ?_, .inl rfl, .inl rfl⟩)
  rcases Nat.eq_zero_or_pos n with rfl | positive
  · exact .inl rfl
  · obtain ⟨c, rest, same, visible⟩ := Text.head_digitsOf positive
    refine .inr ⟨⟨Text.digitsOf_ne_nil n, fun _ => Text.isDigit_of_mem_digitsOf⟩, ?_⟩
    rw [same]
    simpa using visible

/-- An option is written as a value or as null. -/
theorem writable_ofOption {α : Type} {write : α → Json} {value : Option α}
    (writable : ∀ a ∈ value, Writable (write a)) : Writable (.ofOption write value) := by
  cases value with
  | none => exact .null
  | some a => exact writable a rfl

/-- Only null stands for nothing. -/
theorem orNull?_of_ne {α : Type} {read : Json → Option α} {j : Json} (apart : j ≠ .null) :
    orNull? read j = (read j).map some := by
  cases j with
  | null => exact absurd rfl apart
  | bool | number | string | array | object => rfl

/-- An option reads back if its value does and is not written as null. -/
theorem orNull?_ofOption {α : Type} {read : Json → Option α} {write : α → Json}
    {value : Option α} (reads : ∀ a ∈ value, write a ≠ .null ∧ read (write a) = some a) :
    orNull? read (.ofOption write value) = some value := by
  cases value with
  | none => rfl
  | some a =>
      obtain ⟨apart, back⟩ := reads a rfl
      rw [ofOption, orNull?_of_ne apart, back, Option.map_some]

end Json

end WordMachine
