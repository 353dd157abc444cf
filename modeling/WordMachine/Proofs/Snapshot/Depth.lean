import WordMachine.Proofs.Snapshot.Save
import WordMachine.Proofs.Snapshot.Text

/-! # How deep the text of a snapshot nests

The reader of records looks at most `Json.maximalDepth` levels deep. A snapshot whose form
has no more levels of arrays and objects reads back from its text. Only versions inside
versions make forms deep: what is saved of words whose versions have none of their own
stays far from the limit.
-/

namespace WordMachine

namespace Json

mutual

/-- How many levels of arrays and objects a value has. -/
def depth : Json → Nat
  | .array items => itemsDepth items + 1
  | .object members => membersDepth members + 1
  | .null | .bool _ | .number _ | .string _ => 0

/-- How many levels the deepest element has. -/
def itemsDepth : List Json → Nat
  | [] => 0
  | item :: items => max (depth item) (itemsDepth items)

/-- How many levels the deepest member has. -/
def membersDepth : List (Option String × Json) → Nat
  | [] => 0
  | (_, value) :: members => max (depth value) (membersDepth members)

end

/-- A list nests as deep as its deepest item. -/
theorem itemsDepth_le_iff {items : List Json} {levels : Nat} :
    itemsDepth items ≤ levels ↔ ∀ item ∈ items, depth item ≤ levels := by
  induction items with
  | nil => simp [itemsDepth]
  | cons item items ih => rw [itemsDepth, Nat.max_le, ih, List.forall_mem_cons]

/-- An array adds a level to its items. -/
@[simp]
theorem depth_array (items : List Json) : depth (.array items) = itemsDepth items + 1 := by
  rw [depth]

@[simp]
theorem depth_bool (b : Bool) : depth (.bool b) = 0 := by
  rw [depth]

@[simp]
theorem depth_ofText (text : String) : depth (.ofText text) = 0 := by
  rw [ofText, depth]

@[simp]
theorem depth_ofNat (n : Nat) : depth (.ofNat n) = 0 := by
  rw [ofNat, depth]

/-- An option of flat values is flat. -/
theorem depth_ofOption {α : Type} {f : α → Json} (flat : ∀ a, depth (f a) = 0)
    (value : Option α) : depth (.ofOption f value) = 0 := by
  cases value with
  | none => rw [ofOption, depth]
  | some a => exact flat a

@[simp]
theorem depth_ofMembers_nil : depth (.ofMembers []) = 1 := by
  rw [ofMembers, List.map_nil, depth, membersDepth]

/-- An object is one level deeper than its deepest member. -/
@[simp]
theorem depth_ofMembers_cons (name : String) (value : Json) (members : List (String × Json)) :
    depth (.ofMembers ((name, value) :: members)) =
      max (depth value + 1) (depth (.ofMembers members)) := by
  rw [ofMembers, ofMembers, List.map_cons, depth, depth, membersDepth, Nat.add_max_add_right]

end Json

namespace Value

/-- A number is flat, also one that is written as text. -/
theorem depth_numberJson (x : Float) : (numberJson x).depth = 0 := by
  unfold numberJson
  split
  · rw [Json.depth]
  · rw [Json.depth_ofText]

/-- A value nests two levels deep at most. -/
theorem depth_toJson_le (v : Value) : v.toJson.depth ≤ 2 := by
  cases v with
  | number x => simp [toJson, depth_numberJson]
  | text s => simp [toJson]
  | bool b => simp [toJson]
  | handle h => simp [toJson]
  | nil => simp [toJson]

/-- A number that is not finite is written as one of three tags. -/
theorem numberJson_of_infinite {x : Float} (infinite : Binary64.isFinite x = false) :
    ∃ tag ∈ ["inf", "-inf", "NaN"], numberJson x = .ofText tag := by
  rw [numberJson, if_neg (Bool.eq_false_iff.mp infinite), Layout.text,
    if_neg (Bool.eq_false_iff.mp infinite)]
  split
  · exact ⟨"NaN", by decide, rfl⟩
  · split
    · exact ⟨"-inf", by decide, rfl⟩
    · exact ⟨"inf", by decide, rfl⟩

end Value

namespace Snapshot

mutual

/-- The depth of a word is the number of levels counted on its revisions. -/
theorem depth_wordJson : (w : StoredWord) → (wordJson w).depth = wordLevels w
  | ⟨name, effect, body, immediate, defined, usage, history, documentation⟩ => by
      have versions := itemsDepth_historyJson history
      have comment := Json.depth_ofOption Json.depth_ofText documentation
      simp [wordJson, wordLevels, versions, comment]

/-- The depth of a history is that of its deepest revision. -/
theorem itemsDepth_historyJson : (history : List StoredRevision) →
    Json.itemsDepth (historyJson history) = historyLevels history
  | [] => rfl
  | ⟨word, redefined⟩ :: rest => by
      have inner := depth_wordJson word
      have others := itemsDepth_historyJson rest
      simp [historyJson, historyLevels, Json.itemsDepth, inner, others]

end

theorem depth_boundJson (bound : Option UInt64) : (boundJson bound).depth = 0 := by
  rw [boundJson]
  exact Json.depth_ofOption (fun n => Json.depth_ofNat n.toNat) bound

/-- A snapshot is as deep as its values or its words, two levels further in. -/
theorem depth_toJson (s : Snapshot) :
    s.toJson.depth = max 2 (max (Json.itemsDepth (s.stack.map Value.toJson) + 2)
      (Json.itemsDepth (s.dictionary.map wordJson) + 2)) := by
  simp [toJson, depth_boundJson]

/-- A snapshot is as deep as its values and its words allow. -/
theorem depth_toJson_le_iff {s : Snapshot} {levels : Nat} (enough : 2 ≤ levels) :
    s.toJson.depth ≤ levels + 2 ↔ ∀ w ∈ s.dictionary, wordLevels w ≤ levels := by
  have values : Json.itemsDepth (s.stack.map Value.toJson) ≤ levels := by
    rw [Json.itemsDepth_le_iff, List.forall_mem_map]
    exact fun v _ => v.depth_toJson_le.trans enough
  have words : Json.itemsDepth (s.dictionary.map wordJson) ≤ levels ↔
      ∀ w ∈ s.dictionary, wordLevels w ≤ levels := by
    simp only [Json.itemsDepth_le_iff, List.forall_mem_map, depth_wordJson]
  rw [← words, depth_toJson]
  omega

/-- A snapshot is shallow if a reader of JSON takes its depth. -/
theorem shallow_iff_depth_le {s : Snapshot} :
    s.Shallow ↔ s.toJson.depth ≤ Json.maximalDepth :=
  (@depth_toJson_le_iff s (Json.maximalDepth - 2) (by decide)).symm

end Snapshot

namespace Machine

/-- The versions of the words that are saved have no versions of their own. -/
def FlatHistories (m : Machine) : Prop :=
  ∀ w ∈ m.dictionary.words, w.category = .user → ∀ revision ∈ w.history,
    revision.word.history = []

/-- A machine with flat histories saves to a shallow snapshot. -/
theorem shallow_save {m : Machine} (flat : m.FlatHistories) : m.save.Shallow := by
  intro stored member
  obtain ⟨w, saved, rfl⟩ := List.mem_map.mp member
  obtain ⟨known, user⟩ := List.mem_filter.mp saved
  have versions : ∀ revision ∈ (Snapshot.ofWord w).history, revision.word.history = [] := by
    rw [Snapshot.ofWord_history, Snapshot.ofHistory_eq_map, List.forall_mem_map]
    intro revision old
    rw [Snapshot.ofWord_history, flat w known (of_decide_eq_true user) revision old]
    rfl
  exact (Snapshot.wordLevels_le_of_flat versions).trans (by decide)

end Machine

namespace Snapshot

/-- **The text of a snapshot reads back.** A snapshot whose form nests no deeper than a
reader looks is read from its text with its handles detached and all else kept. What is
saved of words with flat histories nests no deeper, and numbers that are not finite pass
through tags. -/
theorem ofText_toText_of_depth :
    (∀ s : Snapshot, s.toJson.depth ≤ Json.maximalDepth → ofText s.toText = .ok s.detached) ∧
      (∀ m : Machine, m.FlatHistories → m.save.toJson.depth ≤ Json.maximalDepth) ∧
      ∀ x, Binary64.isFinite x = false →
        ∃ tag ∈ ["inf", "-inf", "NaN"], Value.numberJson x = .ofText tag :=
  ⟨fun _ enough => ofText_toText (shallow_iff_depth_le.mpr enough),
    fun _ flat => shallow_iff_depth_le.mp (Machine.shallow_save flat),
    fun _ infinite => Value.numberJson_of_infinite infinite⟩

/-- Texts with a quote, a backslash, control characters and a character beyond the first
plane come back, and so do a zero with a sign, an infinity through its tag and a version
inside a version; and the saved form of a redefined word is read. -/
theorem ofText_toText_of_depth_of_nested :
    let oldest : StoredWord := ⟨"X", "\\\x7f\"", "[]", false, .millennium, 0, [], none⟩
    let older : StoredWord :=
      ⟨"X", "", "[]", true, .millennium, 1, [⟨oldest, .millennium⟩], some "\x00\n😀"⟩
    let word : StoredWord :=
      ⟨"X", "( -- )", "[]", false, .millennium, -1, [⟨older, .millennium⟩], none⟩
    let infinity := Binary64.ofMagnitude true Binary64.infinity
    let s : Snapshot :=
      ⟨"0.1.0", .millennium, [.number (-0.0), .number infinity], [word], some 256, none⟩
    let redefined := (((Machine.ofConfig .default .millennium).define "Y" {}).machine.define "Y"
      {}).machine
    s.toJson.depth = 13 ∧ ofText s.toText = .ok s ∧ redefined.FlatHistories ∧
      redefined.save.toJson.depth ≤ Json.maximalDepth ∧ Binary64.isFinite infinity = false ∧
      ∃ tag ∈ ["inf", "-inf", "NaN"], Value.numberJson infinity = .ofText tag := by
  intro oldest older word infinity s redefined
  have depth : s.toJson.depth = 13 := by decide +kernel
  have flat : redefined.FlatHistories := by
    intro w member _ revision old
    cases List.mem_singleton.mp member
    cases List.mem_singleton.mp old
    rfl
  have negative : Binary64.isFinite infinity = false := by decide +kernel
  obtain ⟨reads, saves, tags⟩ := ofText_toText_of_depth
  exact ⟨depth, reads s (by rw [depth]; decide), flat, saves _ flat, negative, tags _ negative⟩

end Snapshot

end WordMachine
