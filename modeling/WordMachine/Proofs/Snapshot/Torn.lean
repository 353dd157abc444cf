import WordMachine.Proofs.Json.Torn
import WordMachine.Proofs.Snapshot.Packed

/-! # No torn snapshot is read

A snapshot may lose its end while it is stored. Fields that may be missing from a text
stand last in their records, and a reader of bytes takes what comes; still no start of a
packed snapshot or of its text is read as a snapshot, whatever the missing part was.
-/

namespace WordMachine

namespace Snapshot

/-- A reader of bytes comes to the end of a torn snapshot. -/
theorem ofBytes_of_cut {s : Snapshot} (addressable : s.Addressable) {part : List UInt8}
    (cut : part <+: s.pack) (strict : part ≠ s.pack) :
    ofBytes part = .error (.malformedBytes .endOfInput) := by
  have shorter : part.length + 1 ≤ s.pack.length + 1 := Nat.succ_le_succ cut.length_le
  have whole := takes_unpack addressable (Nat.le_succ s.pack.length)
  rw [ofBytes, (stable_unpack shorter).endOfInput whole cut strict]

/-- The text of a snapshot is one object, so a torn one is no JSON. -/
theorem ofText_of_cut (s : Snapshot) {part : String} (cut : part.toList <+: s.toText.toList)
    (strict : part ≠ s.toText) : ofText part = .error .malformedText := by
  have spelled : Json.Spells (.object _) s.chars := Json.spells_prettyChars s.writable_toJson 0
  have apart : part.toList ≠ s.chars := fun same =>
    strict (String.toList_injective (by rw [same, toText, String.toList_ofList]))
  rw [toText, String.toList_ofList] at cut
  rw [ofText, ofChars?, Json.readChars?_of_torn spelled cut apart]
  rfl

/-- **No torn snapshot is read.** Every start of a packed snapshot that is not the whole of
it ends too soon for the reader of bytes, and every such start of its text is malformed. -/
theorem malformed_of_torn (s : Snapshot) :
    (s.Addressable → ∀ part, part <+: s.pack → part ≠ s.pack →
        ofBytes part = .error (.malformedBytes .endOfInput)) ∧
      ∀ part : String, part.toList <+: s.toText.toList → part ≠ s.toText →
        ofText part = .error .malformedText :=
  ⟨fun addressable _ cut strict => ofBytes_of_cut addressable cut strict,
    fun _ cut strict => s.ofText_of_cut cut strict⟩

/-- The last byte of a packed snapshot says only that a bound is absent, and the last
character of its text only closes it; neither can be missed. -/
theorem malformed_of_torn_end :
    let s : Snapshot := ⟨"0.1.0", .millennium, [.number (-0.0)], [], none, none⟩
    s.Addressable ∧ ofBytes s.pack.dropLast = .error (.malformedBytes .endOfInput) ∧
      ofText (String.ofList s.chars.dropLast) = .error .malformedText := by
  intro s
  have addressable : s.Addressable := by
    constructor <;> simp [s, Value.Addressable, Text.Addressable]
    decide
  obtain ⟨bytes, text⟩ := malformed_of_torn s
  have shorter : ∀ {α : Type} {items : List α}, items ≠ [] → items.dropLast ≠ items := by
    intro α items nonempty same
    have lengths := congrArg List.length same
    have positive := List.length_pos_iff.mpr nonempty
    rw [List.length_dropLast] at lengths
    omega
  refine ⟨addressable, bytes addressable _ (List.dropLast_prefix _) (shorter (by decide +kernel)),
    text _ ?_ fun same => ?_⟩
  · rw [toText, String.toList_ofList, String.toList_ofList]
    exact List.dropLast_prefix _
  · exact shorter (by decide +kernel) (String.ofList_injective same)

end Snapshot

end WordMachine
