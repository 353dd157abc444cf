import WordMachine.Proofs.Instant
import WordMachine.Proofs.Json.Record
import WordMachine.Proofs.Number.Layout
import WordMachine.Snapshot.Json

/-! # The text of a snapshot reads back

Every value, word and version reads back from its JSON form, as long as the versions do not
nest deeper than a reader looks. Only a handle loses its object. The form of a snapshot can
be written, so that its text reads back too.
-/

namespace WordMachine

open Json (Writable)

namespace Value

/-! ## Values -/

/-- Every number is written, the ones that are not finite as texts. -/
theorem writable_numberJson (x : Float) : Writable (numberJson x) := by
  unfold numberJson
  split
  · next finite => exact .number (Layout.float?_stored finite).1
  · exact .text _

/-- Every number reads back with its bits. -/
theorem numberOfJson?_numberJson (x : Float) : numberOfJson? (numberJson x) = some x := by
  unfold numberJson
  by_cases finite : Binary64.isFinite x = true
  · rw [if_pos finite]
    exact (Layout.float?_stored finite).2
  · rw [if_neg finite, Layout.text, if_neg finite]
    by_cases undefined : Binary64.isNaN x = true
    · rw [if_pos undefined, Binary64.eq_nan_of_isNaN undefined]
      rfl
    · rw [if_neg undefined]
      have infinite := Binary64.magnitude_eq_infinity (Bool.eq_false_iff.mpr finite)
        (Bool.eq_false_iff.mpr undefined)
      have same := Binary64.ofMagnitude_magnitude x
      rw [infinite] at same
      cases sign : Binary64.isNegative x with
      | true =>
          rw [sign] at same
          exact congrArg some same
      | false =>
          rw [sign] at same
          exact congrArg some same

/-- Every value is written. -/
theorem writable_toJson (v : Value) : Writable v.toJson := by
  cases v with
  | number x => exact .object (by simpa using writable_numberJson x)
  | text s => exact .object (by simpa using Writable.text s)
  | bool b => exact .object (by simpa using Writable.bool b)
  | handle h =>
      have kind : Writable (.ofMembers [("kind", .ofText h.kind)]) :=
        .object (by simpa using Writable.text h.kind)
      exact .object (by simpa using kind)
  | nil => exact .text "Nil"

/-- A value reads back from its form, without the object of a handle. -/
theorem ofJson?_toJson (v : Value) {depth : Nat} (enough : 2 ≤ depth) :
    ofJson? depth v.toJson = some v.detach := by
  obtain ⟨depth, rfl⟩ := Nat.exists_eq_add_of_le' enough
  cases v with
  | number x => exact congrArg (Option.map Value.number) (numberOfJson?_numberJson x)
  | text s => rfl
  | bool b => rfl
  | handle h => rfl
  | nil => rfl

end Value

namespace Snapshot

/-- An instant reads back from its text. -/
theorem instantOfJson?_text (t : Instant) : instantOfJson? (.ofText t.text) = some t := by
  rw [instantOfJson?, Json.ofText, Json.text?, Option.bind_some, Instant.read?_text]

/-! ## Words -/

mutual

/-- Every word is written with its whole history. -/
theorem writable_wordJson : (w : StoredWord) → Writable (wordJson w)
  | ⟨name, effect, body, immediate, defined, usage, history, documentation⟩ => by
      have versions : Writable (.array (historyJson history)) :=
        .array (writable_historyJson history)
      have comment : Writable (.ofOption .ofText documentation) :=
        Json.writable_ofOption fun text _ => .text text
      have records : Writable (.ofMembers
          [("defined", .ofText defined.text), ("usageCount", .ofNat usage.toNat),
            ("previousDefinitions", .array (historyJson history)),
            ("documentation", .ofOption .ofText documentation)]) := by
        refine .object ?_
        simp only [List.forall_mem_cons]
        exact ⟨.text _, Json.writable_ofNat _, versions, comment, nofun⟩
      rw [wordJson]
      refine .object ?_
      simp only [List.forall_mem_cons]
      exact ⟨.text _, .text _, .text _, .bool _, records, nofun⟩

/-- Every version of a history is written. -/
theorem writable_historyJson : (history : List StoredRevision) →
    ∀ version ∈ historyJson history, Writable version
  | [] => fun _ member => nomatch member
  | ⟨word, redefined⟩ :: rest => by
      have inner := writable_wordJson word
      have others := writable_historyJson rest
      rw [historyJson, List.forall_mem_cons]
      refine ⟨.object ?_, others⟩
      simp only [List.forall_mem_cons]
      exact ⟨inner, .text _, nofun⟩

end

mutual

/-- How many levels of arrays and objects the form of a stored word has. -/
def wordLevels : StoredWord → Nat
  | ⟨_, _, _, _, _, _, history, _⟩ => historyLevels history + 3

/-- How many levels the forms of stored versions have. -/
def historyLevels : List StoredRevision → Nat
  | [] => 0
  | ⟨word, _⟩ :: rest => max (wordLevels word + 1) (historyLevels rest)

end

/-- Versions without a history of their own nest four levels deep at most. -/
theorem historyLevels_le_of_flat {history : List StoredRevision}
    (flat : ∀ revision ∈ history, revision.word.history = []) : historyLevels history ≤ 4 := by
  induction history with
  | nil =>
      rw [historyLevels]
      exact Nat.zero_le 4
  | cons revision rest ih =>
      rw [List.forall_mem_cons] at flat
      obtain ⟨⟨name, effect, body, immediate, defined, usage, history, documentation⟩, redefined⟩ :=
        revision
      have below : history = [] := flat.1
      subst below
      rw [historyLevels, wordLevels, historyLevels]
      exact Nat.max_le.mpr ⟨Nat.le_refl 4, ih flat.2⟩

/-- A word whose versions have no versions of their own has few levels. -/
theorem wordLevels_le_of_flat {w : StoredWord}
    (flat : ∀ revision ∈ w.history, revision.word.history = []) : wordLevels w ≤ 7 := by
  have levels := historyLevels_le_of_flat flat
  cases w
  rw [wordLevels]
  exact Nat.add_le_add_right levels 3

/-- The records of a word read back if its versions do. -/
theorem metadataOfJson?_of_history {depth : Nat} {history : List StoredRevision}
    (defined : Instant) (usage : UInt64) (documentation : Option String)
    (versions : historyOfJson? depth (.array (historyJson history)) = some history) :
    metadataOfJson? (depth + 1) (.ofMembers
        [("defined", .ofText defined.text), ("usageCount", .ofNat usage.toNat),
          ("previousDefinitions", .array (historyJson history)),
          ("documentation", .ofOption .ofText documentation)]) =
      some ⟨defined, usage, history, documentation⟩ := by
  have comment : Json.orNull? Json.text? (.ofOption .ofText documentation) = some documentation :=
    Json.orNull?_ofOption fun text _ => ⟨nofun, rfl⟩
  rw [metadataOfJson?, Json.fields?_ofMembers (by rfl) (by decide)]
  simp only [List.map_cons, List.map_nil, Json.required?, Json.optional?, Option.bind_eq_bind,
    Option.bind_some, instantOfJson?_text, Json.word64?_ofNat, versions, comment, Option.pure_def]

mutual

/-- A word reads back from its form. -/
theorem wordOfJson?_wordJson : (w : StoredWord) → {depth : Nat} → wordLevels w ≤ depth →
    wordOfJson? depth (wordJson w) = some w
  | ⟨name, effect, body, immediate, defined, usage, history, documentation⟩, depth, enough => by
      rw [wordLevels] at enough
      obtain ⟨depth, rfl⟩ := Nat.exists_eq_add_of_le' (Nat.le_of_add_left_le enough)
      have versions : historyOfJson? (depth + 1) (.array (historyJson history)) = some history := by
        rw [historyOfJson?, Json.list?]
        exact historyOfJson?_historyJson history (by omega)
      have records := metadataOfJson?_of_history defined usage documentation versions
      rw [wordJson, wordOfJson?, Json.fields?_ofMembers (by rfl) (by decide)]
      simp only [List.map_cons, List.map_nil, Json.required?, Option.bind_eq_bind, Option.bind_some,
        Json.ofText, Json.text?, Json.bool?, Option.pure_def] at records ⊢
      simp only [records, Option.bind_some]

/-- Versions read back from their forms. -/
theorem historyOfJson?_historyJson : (history : List StoredRevision) → {depth : Nat} →
    historyLevels history ≤ depth →
      (historyJson history).mapM (revisionOfJson? depth) = some history
  | [], _, _ => rfl
  | ⟨word, redefined⟩ :: rest, depth, enough => by
      rw [historyLevels] at enough
      obtain ⟨depth, rfl⟩ := Nat.exists_eq_add_of_le' (show 1 ≤ depth by omega)
      have inner := @wordOfJson?_wordJson word depth (by omega)
      have others := @historyOfJson?_historyJson rest (depth + 1) (by omega)
      have first : revisionOfJson? (depth + 1) (.ofMembers [("word", wordJson word),
          ("redefinedAt", .ofText redefined.text)]) = some ⟨word, redefined⟩ := by
        rw [revisionOfJson?, Json.fields?_ofMembers (by rfl) (by decide)]
        simp only [List.map_cons, List.map_nil, Json.required?, Option.bind_eq_bind,
          Option.bind_some, inner, instantOfJson?_text, Option.pure_def]
      rw [historyJson, List.mapM_cons, first, others]
      rfl

end

/-! ## Snapshots -/

theorem writable_boundJson (bound : Option UInt64) : Writable (boundJson bound) :=
  Json.writable_ofOption fun n _ => Json.writable_ofNat n.toNat

/-- A bound reads back, also one that is missing. -/
theorem orNull?_boundJson (bound : Option UInt64) :
    Json.orNull? Json.word64? (boundJson bound) = some bound :=
  Json.orNull?_ofOption fun n _ => ⟨nofun, Json.word64?_ofNat n⟩

/-- Every snapshot is written. -/
theorem writable_toJson (s : Snapshot) : Writable s.toJson := by
  have values : ∀ item ∈ s.stack.map Value.toJson, Writable item := by
    intro item member
    obtain ⟨v, _, rfl⟩ := List.mem_map.mp member
    exact v.writable_toJson
  have words : ∀ item ∈ s.dictionary.map wordJson, Writable item := by
    intro item member
    obtain ⟨w, _, rfl⟩ := List.mem_map.mp member
    exact writable_wordJson w
  have bounds : Writable (.ofMembers [("stackDepth", boundJson s.stackDepth),
      ("returnStackDepth", boundJson s.returnStackDepth)]) := by
    refine .object ?_
    simp only [List.forall_mem_cons]
    exact ⟨writable_boundJson _, writable_boundJson _, nofun⟩
  refine .object ?_
  simp only [List.forall_mem_cons]
  exact ⟨.text _, .text _, .array values, .array words, bounds, nofun⟩

/-- The snapshot with its handles detached. -/
def detached (s : Snapshot) : Snapshot :=
  { s with stack := s.stack.map Value.detach }

/-- The words of a snapshot nest no deeper than a reader looks. -/
def Shallow (s : Snapshot) : Prop :=
  ∀ w ∈ s.dictionary, wordLevels w ≤ Json.maximalDepth - 2

/-- A snapshot reads back from its form. -/
theorem ofJson?_toJson {s : Snapshot} (shallow : s.Shallow) :
    ofJson? s.toJson = some s.detached := by
  have stack := @Json.list?_array _ _ (Value.ofJson? (Json.maximalDepth - 2)) Value.toJson
    Value.detach s.stack fun v _ => v.ofJson?_toJson (by decide)
  have dictionary := @Json.list?_array _ _ (wordOfJson? (Json.maximalDepth - 2)) wordJson id
    s.dictionary fun w member => wordOfJson?_wordJson w (shallow w member)
  have bounds : boundsOfJson? (.ofMembers [("stackDepth", boundJson s.stackDepth),
      ("returnStackDepth", boundJson s.returnStackDepth)]) =
      some (s.stackDepth, s.returnStackDepth) := by
    rw [boundsOfJson?, Json.fields?_ofMembers (by rfl) (by decide)]
    simp only [List.map_cons, List.map_nil, Json.optional?, Option.bind_eq_bind, Option.bind_some,
      orNull?_boundJson, Option.pure_def]
  rw [toJson, ofJson?, Json.fields?_ofMembers (by rfl) (by decide)]
  simp only [List.map_cons, List.map_nil, Json.required?, Option.bind_eq_bind, Option.bind_some,
    instantOfJson?_text, stack, dictionary, bounds, List.map_id, Option.pure_def]
  rfl

/-- The text of a snapshot reads back. -/
theorem ofText_toText {s : Snapshot} (shallow : s.Shallow) :
    ofText s.toText = .ok s.detached := by
  have read : ofChars? s.chars = some s.detached := by
    rw [ofChars?, chars, Json.readChars?_prettyChars s.writable_toJson, Option.bind_some,
      ofJson?_toJson shallow]
  rw [ofText, toText, String.toList_ofList, read]

end Snapshot

end WordMachine
