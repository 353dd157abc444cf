import WordMachine.Proofs.Json.Spelling

/-! # Written JSON reads back

A value is writable if its numbers are texts of numbers and its strings have texts. Both
writers spell writable values, so the reader undoes both.
-/

namespace WordMachine

namespace Json

/-- A value that can be written and read back. -/
inductive Writable : Json → Prop where
  | null : Writable .null
  | bool (b : Bool) : Writable (.bool b)
  | number {chars : List Char} : NumberText chars → Writable (.number chars)
  | text (text : String) : Writable (.ofText text)
  | array {items : List Json} : (∀ item ∈ items, Writable item) → Writable (.array items)
  | object {members : List (String × Json)} :
      (∀ member ∈ members, Writable member.2) → Writable (.ofMembers members)

/-! ## On one line -/

/-- Items on one line are spelled with commas between them. -/
theorem spellsItems_compactItems {item : Json} {cs : List Char} {items : List Json}
    (first : Spells item cs) (others : ∀ other ∈ items, Spells other (compactChars other)) :
    SpellsItems (item :: items) (cs ++ compactItems items) := by
  induction items generalizing item cs with
  | nil => exact .last blanks_nil first blanks_nil
  | cons next items ih =>
      rw [List.forall_mem_cons] at others
      exact .more blanks_nil first blanks_nil (ih others.1 others.2)

/-- Members on one line are spelled with their keys and with commas between them. -/
theorem spellsMembers_compactMembers {name : String} {value : Json} {cs : List Char}
    {members : List (String × Json)} (first : Spells value cs)
    (others : ∀ member ∈ members, Spells member.2 (compactChars member.2)) :
    SpellsMembers ((some name, value) :: members.map fun (name, value) => (some name, value))
      (quoted name ++ ':' :: (cs ++
        compactMembers (members.map fun (name, value) => (some name, value)))) := by
  induction members generalizing name value cs with
  | nil =>
      exact .last blanks_nil blanks_nil first blanks_nil
  | cons next members ih =>
      rw [List.forall_mem_cons] at others
      have more := @ih next.1 _ _ others.1 others.2
      have spelled := @SpellsMembers.more name _ _ _ _ _ _ _ blanks_nil blanks_nil first
        blanks_nil more
      simpa [compactMembers, quotedOption] using spelled

/-- What is written on one line spells the value. -/
theorem spells_compactChars {j : Json} (writable : Writable j) : Spells j (compactChars j) := by
  induction writable with
  | null => exact .null
  | bool b =>
      cases b with
      | true => exact .affirmed
      | false => exact .denied
  | number text => exact .number text
  | text text => exact .text text
  | @array items _ ih =>
      cases items with
      | nil => exact .emptyArray
      | cons item items =>
          rw [List.forall_mem_cons] at ih
          exact .array (spellsItems_compactItems ih.1 ih.2)
  | @object members _ ih =>
      cases members with
      | nil => exact .emptyObject
      | cons member members =>
          rw [List.forall_mem_cons] at ih
          have spelled := Spells.object (@spellsMembers_compactMembers member.1 _ _ _ ih.1 ih.2)
          simpa [ofMembers, compactChars, quotedOption] using spelled

/-! ## One element or member a line -/

theorem blanks_space : Blanks [' '] := by
  intro c member
  cases List.mem_singleton.mp member
  rfl

/-- A new line with its indentation is white space. -/
theorem blanks_newLine (level : Nat) : Blanks (newLine level) := by
  intro c member
  rcases List.mem_cons.mp member with rfl | space
  · rfl
  · rw [List.eq_of_mem_replicate space]
    rfl

/-- Items with a line each are spelled too, since only white space is added. -/
theorem spellsItems_prettyItems {item : Json} {before cs : List Char} {items : List Json}
    (level : Nat) (blank : Blanks before) (first : Spells item cs)
    (others : ∀ other ∈ items, Spells other (prettyChars (level + 1) other)) :
    SpellsItems (item :: items) (before ++ (cs ++ prettyItems level items)) := by
  induction items generalizing item before cs with
  | nil => exact .last blank first (blanks_newLine level)
  | cons next items ih =>
      rw [List.forall_mem_cons] at others
      have more := ih (blanks_newLine (level + 1)) others.1 others.2
      have spelled := SpellsItems.more blank first blanks_nil more
      simpa [prettyItems] using spelled

/-- Members with a line each are spelled too. -/
theorem spellsMembers_prettyMembers {name : String} {value : Json} {before cs : List Char}
    {members : List (String × Json)} (level : Nat) (blank : Blanks before)
    (first : Spells value cs)
    (others : ∀ member ∈ members, Spells member.2 (prettyChars (level + 1) member.2)) :
    SpellsMembers ((some name, value) :: members.map fun (name, value) => (some name, value))
      (before ++ (quoted name ++ ':' :: ' ' :: (cs ++
        prettyMembers level (members.map fun (name, value) => (some name, value))))) := by
  induction members generalizing name value before cs with
  | nil =>
      exact .last blank blanks_space first (blanks_newLine level)
  | cons next members ih =>
      rw [List.forall_mem_cons] at others
      have more := @ih next.1 _ _ _ (blanks_newLine (level + 1)) others.1 others.2
      have spelled := @SpellsMembers.more name _ _ _ _ _ _ _ blank blanks_space first blanks_nil
        more
      simpa [prettyMembers, quotedOption] using spelled

/-- What is written with one element or member a line spells the value. -/
theorem spells_prettyChars {j : Json} (writable : Writable j) (level : Nat) :
    Spells j (prettyChars level j) := by
  induction writable generalizing level with
  | null => exact .null
  | bool b =>
      cases b with
      | true => exact .affirmed
      | false => exact .denied
  | number text => exact .number text
  | text text => exact .text text
  | @array items _ ih =>
      cases items with
      | nil => exact .emptyArray
      | cons item items =>
          rw [List.forall_mem_cons] at ih
          have spelled := Spells.array (spellsItems_prettyItems level (blanks_newLine (level + 1))
            (ih.1 (level + 1)) fun other member => ih.2 other member (level + 1))
          simpa [prettyChars] using spelled
  | @object members _ ih =>
      cases members with
      | nil => exact .emptyObject
      | cons member members =>
          rw [List.forall_mem_cons] at ih
          have spelled := Spells.object (@spellsMembers_prettyMembers member.1 _ _ _ _ level
            (blanks_newLine (level + 1)) (ih.1 (level + 1)) fun other member =>
              ih.2 other member (level + 1))
          simpa [ofMembers, prettyChars, quotedOption] using spelled

/-! ## Reading back -/

/-- A value on one line reads back. -/
theorem read?_compact {j : Json} (writable : Writable j) : read? j.compact = some j := by
  rw [read?, compact, String.toList_ofList]
  exact readChars?_of_spells (spells_compactChars writable)

/-- A value with one element or member a line reads back. -/
theorem readChars?_prettyChars {j : Json} (writable : Writable j) (level : Nat) :
    readChars? (prettyChars level j) = some j :=
  readChars?_of_spells (spells_prettyChars writable level)

end Json

end WordMachine
