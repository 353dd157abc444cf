import WordMachine.Proofs.Instant
import WordMachine.Proofs.Packed
import WordMachine.Proofs.Snapshot.Text
import WordMachine.Snapshot.Packed

/-! # The bytes of a snapshot read back

A packed snapshot reads back whatever bytes follow it, with nothing lost but the objects
of handles. The lengths of texts and lists are packed as numbers of 64 bits, so this is
said of snapshots whose lengths are such numbers, as they are of everything in memory.
Versions may nest in each other to any depth.
-/

namespace WordMachine

open Packed (Takes Stable)

/-- The length of a text in bytes is a number of 64 bits. -/
def Text.Addressable (text : String) : Prop :=
  text.utf8ByteSize < UInt64.size

/-! ## Instants -/

namespace Instant

theorem length_yearText_le {year : Int} (valid : Calendar.yearInRange year = true) :
    (yearText year).length ≤ 7 := by
  simp only [Calendar.yearInRange, Bool.and_eq_true, decide_eq_true_eq] at valid
  unfold yearText
  split
  · rw [Text.length_paddedDigits]
    decide
  · rw [List.length_cons]
    split
    · rw [Text.length_paddedDigits]
      decide
    · have digits := (@Text.length_digitsOf_le_iff year.natAbs 6 (by decide)).mpr (by omega)
      omega

theorem length_fractionText_le (nanos : Nat) : (fractionText nanos).length ≤ 10 := by
  unfold fractionText
  repeat' split
  all_goals simp

theorem length_chars_le (t : Instant) : t.chars.length ≤ 33 := by
  have valid := t.date_valid
  simp only [Calendar.isDate, Bool.and_eq_true] at valid
  have year := length_yearText_le valid.1.1.1.1
  have fraction := length_fractionText_le t.nanos
  simp only [chars, List.length_append, List.length_cons, List.length_nil,
    Text.length_paddedDigits]
  omega

/-- The text of an instant is short. -/
theorem addressable_text (t : Instant) : Text.Addressable t.text := by
  have bytes : ∀ cs : List Char, (String.ofList cs).utf8ByteSize ≤ 4 * cs.length := by
    intro cs
    rw [String.utf8ByteSize_ofList]
    induction cs with
    | nil => exact Nat.le_refl 0
    | cons c cs ih =>
        have one := c.utf8Size_le_four
        rw [String.utf8Len_cons, List.length_cons]
        omega
  calc t.text.utf8ByteSize
      ≤ 4 * t.chars.length := bytes t.chars
    _ ≤ 4 * 33 := Nat.mul_le_mul_left 4 t.length_chars_le
    _ < UInt64.size := by decide

end Instant

/-! ## Values -/

namespace Value

/-- The text of a value is addressable. -/
def Addressable : Value → Prop
  | .text s => Text.Addressable s
  | .handle h => Text.Addressable h.kind
  | .number _ | .bool _ | .nil => True

/-- A packed value reads back, without the object of a handle. -/
theorem takes_unpack {v : Value} (addressable : v.Addressable) :
    Takes unpack v.pack v.detach := by
  intro rest
  cases v with
  | number x => exact ((Packed.takes_takeFloat x).map Value.number) rest
  | text s => exact ((Packed.takes_takeText addressable).map Value.text) rest
  | bool b => exact ((Packed.takes_takeBool b).map Value.bool) rest
  | handle h =>
      exact ((Packed.takes_takeText addressable).map fun kind => Value.handle ⟨kind, none⟩) rest
  | nil => rfl

theorem stable_unpack : Stable unpack unpack := by
  refine Packed.stable_takeTag.bind fun tag => ?_
  split
  · exact Packed.stable_takeFloat.bind fun _ => Packed.stable_pure _
  · exact Packed.stable_takeText.bind fun _ => Packed.stable_pure _
  · exact Packed.stable_takeBool.bind fun _ => Packed.stable_pure _
  · exact Packed.stable_takeText.bind fun _ => Packed.stable_pure _
  · exact Packed.stable_pure _
  · exact Packed.stable_throw .badContent

end Value

namespace Snapshot

/-! ## Words -/

theorem takes_unpackInstant (t : Instant) : Takes unpackInstant (packInstant t) t := by
  intro rest
  rw [unpackInstant, packInstant, Packed.bind_of_ok (Packed.takes_takeText t.addressable_text rest),
    Instant.read?_text]
  rfl

theorem stable_unpackInstant : Stable unpackInstant unpackInstant := by
  refine Packed.stable_takeText.bind fun text => ?_
  split
  · exact Packed.stable_pure _
  · exact Packed.stable_throw .badContent

mutual

/-- The texts and histories of a stored word are addressable, those of its versions
included. -/
def WordAddressable : StoredWord → Prop
  | ⟨name, effect, body, _, _, _, history, documentation⟩ =>
    Text.Addressable name ∧ Text.Addressable effect ∧ Text.Addressable body ∧
      history.length < UInt64.size ∧ HistoryAddressable history ∧
      ∀ text ∈ documentation, Text.Addressable text

/-- The texts and histories of stored versions are addressable. -/
def HistoryAddressable : List StoredRevision → Prop
  | [] => True
  | ⟨word, _⟩ :: rest => WordAddressable word ∧ HistoryAddressable rest

end

/-- Reads a stored version whose own versions nest less than `levels` deep. -/
def unpackRevision (levels : Nat) : Packed.Reader StoredRevision := do
  let word ← unpackWord levels
  let redefined ← unpackInstant
  return ⟨word, redefined⟩

theorem length_ofText_pos (text : String) : 0 < (Packed.ofText text).length := by
  unfold Packed.ofText Packed.ofNat Packed.groupsOf
  split <;> simp

mutual

/-- A packed word reads back if it has no more bytes than levels are read. -/
theorem takes_unpackWord : (w : StoredWord) → WordAddressable w → {levels : Nat} →
    (packWord w).length ≤ levels → Takes (unpackWord levels) (packWord w) w
  | ⟨name, effect, body, immediate, defined, usage, history, documentation⟩, addressable,
      levels, enough => by
      obtain ⟨name_fits, effect_fits, body_fits, few, versions_fit, documentation_fits⟩ :=
        addressable
      have first := length_ofText_pos name
      simp only [packWord, List.length_append] at enough
      obtain ⟨levels, rfl⟩ := Nat.exists_eq_add_of_le' (show 1 ≤ levels by omega)
      have versions : Takes (Packed.takeList (unpackRevision levels)) _ history :=
        (Packed.takes_takeNat few).bind (takes_unpackHistory history versions_fit (by omega))
      have taken : Takes (unpackWord (levels + 1)) _
          ⟨name, effect, body, immediate, defined, usage, history, documentation⟩ :=
        (Packed.takes_takeText name_fits).bind <| (Packed.takes_takeText effect_fits).bind <|
        (Packed.takes_takeText body_fits).bind <| (Packed.takes_takeBool immediate).bind <|
        (takes_unpackInstant defined).bind <| (Packed.takes_takeWord64 usage).bind <|
        versions.bind <|
        (Packed.takes_takeOption fun text member =>
          Packed.takes_takeText (documentation_fits text member)).bind <|
        Packed.takes_pure _
      simpa only [packWord, List.append_assoc, List.append_nil] using taken

/-- Packed versions read back one after the other. -/
theorem takes_unpackHistory : (history : List StoredRevision) → HistoryAddressable history →
    {levels : Nat} → (packHistory history).length ≤ levels →
      Takes (Packed.takeMany (unpackRevision levels) history.length) (packHistory history) history
  | [], _, _, _ => Packed.takes_pure []
  | ⟨word, redefined⟩ :: rest, addressable, levels, enough => by
      obtain ⟨word_fits, rest_fit⟩ := addressable
      simp only [packHistory, List.length_append] at enough
      have inner := @takes_unpackWord word word_fits levels (by omega)
      have others := @takes_unpackHistory rest rest_fit levels (by omega)
      have version : Takes (unpackRevision levels) _ ⟨word, redefined⟩ :=
        inner.bind ((takes_unpackInstant redefined).bind (Packed.takes_pure _))
      have taken := Packed.takes_takeMany_succ version others
      simpa only [packHistory, List.length_cons, List.append_assoc, List.append_nil] using taken

end

theorem stable_unpackWord {levels deeper : Nat} (enough : levels ≤ deeper) :
    Stable (unpackWord levels) (unpackWord deeper) := by
  induction levels generalizing deeper with
  | zero => exact fun _ _ => .inl rfl
  | succ levels ih =>
      obtain ⟨deeper, rfl⟩ := Nat.exists_eq_add_of_le' (Nat.le_of_add_left_le enough)
      have version : Stable (unpackRevision levels) (unpackRevision deeper) :=
        (ih (by omega)).bind fun _ =>
          stable_unpackInstant.bind fun _ => Packed.stable_pure _
      exact Packed.stable_takeText.bind fun _ => Packed.stable_takeText.bind fun _ =>
        Packed.stable_takeText.bind fun _ => Packed.stable_takeBool.bind fun _ =>
        stable_unpackInstant.bind fun _ => Packed.stable_takeWord64.bind fun _ =>
        (Packed.stable_takeList version).bind fun _ =>
        (Packed.stable_takeOption Packed.stable_takeText).bind fun _ => Packed.stable_pure _

/-! ## Snapshots -/

/-- All texts and lists of a snapshot are addressable. -/
structure Addressable (s : Snapshot) : Prop where
  version : Text.Addressable s.version
  stack : s.stack.length < UInt64.size
  values : ∀ v ∈ s.stack, v.Addressable
  dictionary : s.dictionary.length < UInt64.size
  words : ∀ w ∈ s.dictionary, WordAddressable w

theorem length_packWord_le {s : Snapshot} {w : StoredWord} (member : w ∈ s.dictionary) :
    (packWord w).length ≤ s.pack.length := by
  have listed : packWord w ∈ s.dictionary.map packWord := List.mem_map_of_mem member
  have part := (List.sublist_flatten_of_mem listed).length_le
  rw [← List.flatMap_def] at part
  simp only [pack, Packed.ofList, List.length_append]
  omega

/-- A packed snapshot reads back if no more bytes are packed than levels are read. -/
theorem takes_unpack {s : Snapshot} (addressable : s.Addressable) {levels : Nat}
    (enough : s.pack.length ≤ levels) : Takes (unpack levels) s.pack s.detached := by
  have words : ∀ w ∈ s.dictionary, Takes (unpackWord levels) (packWord w) (id w) :=
    fun w member => takes_unpackWord w (addressable.words w member)
      ((length_packWord_le member).trans enough)
  have dictionary := Packed.takes_takeList addressable.dictionary words
  rw [List.map_id] at dictionary
  have taken : Takes (unpack levels) _ s.detached :=
    (Packed.takes_takeText addressable.version).bind <| (takes_unpackInstant s.timestamp).bind <|
    (Packed.takes_takeList addressable.stack fun v member =>
      Value.takes_unpack (addressable.values v member)).bind <|
    dictionary.bind <|
    (Packed.takes_takeOption fun n _ => Packed.takes_takeWord64 n).bind <|
    (Packed.takes_takeOption fun n _ => Packed.takes_takeWord64 n).bind <|
    Packed.takes_pure _
  simpa only [pack, List.append_assoc, List.append_nil] using taken

theorem stable_unpack {levels deeper : Nat} (enough : levels ≤ deeper) :
    Stable (unpack levels) (unpack deeper) :=
  Packed.stable_takeText.bind fun _ => stable_unpackInstant.bind fun _ =>
  (Packed.stable_takeList Value.stable_unpack).bind fun _ =>
  (Packed.stable_takeList (stable_unpackWord enough)).bind fun _ =>
  (Packed.stable_takeOption Packed.stable_takeWord64).bind fun _ =>
  (Packed.stable_takeOption Packed.stable_takeWord64).bind fun _ => Packed.stable_pure _

/-- **Packed snapshots read back.** The snapshot at the front of its packed form and any
bytes after it is the one that was packed, with its handles detached and all else kept. -/
theorem ofBytes_pack_append {s : Snapshot} (addressable : s.Addressable) (rest : List UInt8) :
    ofBytes (s.pack ++ rest) = .ok s.detached := by
  have enough : s.pack.length ≤ (s.pack ++ rest).length + 1 := by
    rw [List.length_append]
    omega
  rw [ofBytes, takes_unpack addressable enough rest]

/-- A version inside a version, the largest count, a zero with a sign, the NaN and a handle
with an object are packed, and other bytes follow. -/
theorem ofBytes_pack_append_of_nested :
    let oldest : StoredWord := ⟨"X", "( -- )", "[]", false, .millennium, 0, [], none⟩
    let older : StoredWord :=
      ⟨"X", "( -- n )", "[\"1\"]", true, .millennium, 128, [⟨oldest, .millennium⟩], some "é"⟩
    let word : StoredWord :=
      ⟨"X", "( -- n )", "[\"2\"]", false, .millennium, -1, [⟨older, .millennium⟩], none⟩
    let s : Snapshot :=
      ⟨"0.1.0", .millennium,
        [.number (-0.0), .number Binary64.nan, .handle ⟨"file", some ⟨0, .integer 7⟩⟩], [word],
        some 16384, none⟩
    s.Addressable ∧ ofBytes (s.pack ++ [0, 255]) = .ok s.detached ∧
      s.detached.stack = [.number (-0.0), .number Binary64.nan, .handle ⟨"file", none⟩] := by
  intro oldest older word s
  have addressable : s.Addressable := by
    constructor <;> simp [s, word, older, oldest, WordAddressable, HistoryAddressable,
      Value.Addressable, Text.Addressable] <;> decide
  exact ⟨addressable, ofBytes_pack_append addressable _, rfl⟩

end Snapshot

end WordMachine
