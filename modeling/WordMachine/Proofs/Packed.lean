import Mathlib
import WordMachine.Packed

/-! # Packed elements read back, and a cut is noticed

A reader takes exactly what was written off the front of a list of bytes, whatever
follows (`Takes`). And it looks at nothing behind what it takes: more bytes change its
answer only if it came to the end without them (`Stable`). Together they say that a
reader which takes the whole of what was written comes to the end on every part of it
(`Stable.endOfInput`). Both properties are kept when readers run one after the other.
-/

namespace WordMachine

namespace Packed

variable {α β : Type}

/-! ## Taking back what was written -/

/-- The reader takes the bytes off the front of any list and makes `a` of them. -/
def Takes (read : Reader α) (bytes : List UInt8) (a : α) : Prop :=
  ∀ rest, read (bytes ++ rest) = .ok (a, rest)

/-- What follows a reader goes on with what the reader leaves. -/
theorem bind_of_ok {read : Reader α} {bytes rest : List UInt8} {a : α}
    (taken : read bytes = .ok (a, rest)) (next : α → Reader β) :
    (read >>= next) bytes = next a rest := by
  simp only [bind, StateT.bind, taken, Except.bind]

/-- A fault stops everything that follows. -/
theorem bind_of_error {read : Reader α} {bytes : List UInt8} {fault : PackedFault}
    (stopped : read bytes = .error fault) (next : α → Reader β) :
    (read >>= next) bytes = .error fault := by
  simp only [bind, StateT.bind, stopped, Except.bind]

/-- Nothing is taken to give a value that is known. -/
theorem takes_pure (a : α) : Takes (pure a) [] a :=
  fun _ => rfl

/-- Readers take what is written one after the other. -/
theorem Takes.bind {read : Reader α} {next : α → Reader β} {bytes more : List UInt8} {a : α}
    {b : β} (first : Takes read bytes a) (second : Takes (next a) more b) :
    Takes (read >>= next) (bytes ++ more) b := by
  intro rest
  rw [List.append_assoc, bind_of_ok (first (more ++ rest)), second rest]

/-- A last reader whose value goes into a record. -/
theorem Takes.map {read : Reader α} {bytes : List UInt8} {a : α} (taken : Takes read bytes a)
    (f : α → β) : Takes (f <$> read) bytes (f a) := by
  rw [← bind_pure_comp]
  intro rest
  rw [bind_of_ok (taken rest)]
  rfl

/-- A number below 256 is the value of its byte. -/
theorem toNat_ofNat_of_lt {n : Nat} (small : n < 256) : (UInt8.ofNat n).toNat = n :=
  UInt8.toNat_ofNat_of_lt' small

/-- A number is taken back from its groups if the last of them is in bounds. -/
theorem takes_takeGroups {last : Nat} (short : last < 128) {groups n : Nat}
    (fits : n < 128 ^ groups * (last + 1)) :
    Takes (takeGroups last (groups + 1)) (groupsOf groups n) n := by
  induction groups generalizing n with
  | zero =>
      intro rest
      have small : n ≤ last := by simpa [Nat.lt_succ_iff] using fits
      have byte := @toNat_ofNat_of_lt n (by omega)
      simp only [groupsOf, List.singleton_append, takeGroups, byte]
      rw [if_pos (by omega), if_neg (by omega)]
  | succ groups ih =>
      intro rest
      by_cases small : n < 128
      · have byte := @toNat_ofNat_of_lt n (by omega)
        simp only [groupsOf, if_pos small, List.singleton_append, takeGroups, byte]
        rw [if_neg (by omega)]
      · have high : n / 128 < 128 ^ groups * (last + 1) := by
          rw [Nat.div_lt_iff_lt_mul (by decide), Nat.mul_right_comm]
          exact fits
        have byte := @toNat_ofNat_of_lt (n % 128 + 128) (by omega)
        have others := ih high rest
        simp only [groupsOf, if_neg small, List.cons_append, takeGroups, byte, others]
        rw [if_neg (by omega), show n % 128 + 128 - 128 + 128 * (n / 128) = n by omega]

/-- A length is read back; its last group is the one without the bit that says more. -/
theorem takes_takeNat {n : Nat} (fits : n < UInt64.size) : Takes takeNat (ofNat n) n :=
  takes_takeGroups (by decide) fits

/-- A word of 64 bits is read back. -/
theorem takes_takeWord64 (n : UInt64) : Takes takeWord64 (ofWord64 n) n := by
  have taken := (takes_takeNat n.toNat_lt).map UInt64.ofNat
  rwa [UInt64.ofNat_toNat] at taken

/-- As many bytes as asked for are taken as they are. -/
theorem takes_takeBytes (bytes : List UInt8) : Takes (takeBytes bytes.length) bytes bytes := by
  intro rest
  rw [takeBytes, if_neg (by simp), List.take_left, List.drop_left]

/-- A number has as many bytes as it is written with. -/
theorem length_littleEndian (count n : Nat) : (littleEndian count n).length = count := by
  induction count generalizing n with
  | zero => rfl
  | succ count ih => rw [littleEndian, List.length_cons, ih]

/-- Bytes, least first, are read as the number that they write, if it fits. -/
theorem ofLittleEndian_littleEndian {count n : Nat} (fits : n < 256 ^ count) :
    ofLittleEndian (littleEndian count n) = n := by
  induction count generalizing n with
  | zero =>
      rw [pow_zero, Nat.lt_one_iff] at fits
      rw [fits]
      rfl
  | succ count ih =>
      have high : n / 256 < 256 ^ count := by
        rwa [Nat.div_lt_iff_lt_mul (by decide), ← pow_succ]
      rw [littleEndian, ofLittleEndian, ih high, toNat_ofNat_of_lt (by omega)]
      omega

/-- A number is read back from the eight bytes of its bits. -/
theorem takes_takeFloat (x : Float) : Takes takeFloat (ofFloat x) x := by
  have eight : (ofFloat x).length = 8 := length_littleEndian 8 _
  have taken := takes_takeBytes (ofFloat x)
  rw [eight] at taken
  have same : Float.ofBits (UInt64.ofNat (ofLittleEndian (ofFloat x))) = x := by
    rw [ofFloat, ofLittleEndian_littleEndian x.toBits.toNat_lt, UInt64.ofNat_toNat,
      Float.ofBits_toBits]
  intro rest
  rw [takeFloat, bind_of_ok (taken rest)]
  exact congrArg (fun y => Except.ok (y, rest)) same

/-- A truth value is read back from its byte. -/
theorem takes_takeBool (b : Bool) : Takes takeBool (ofBool b) b := by
  cases b <;> exact fun _ => rfl

/-- The bytes of a text are UTF-8 and decode to the text. -/
theorem fromUTF8?_toByteArray (text : String) : String.fromUTF8? text.toByteArray = some text := by
  rw [String.fromUTF8?, dif_pos text.isValidUTF8]
  rfl

/-- A text is read back from its length in bytes and its bytes. -/
theorem takes_takeText {text : String} (fits : text.utf8ByteSize < UInt64.size) :
    Takes takeText (ofText text) text := by
  intro rest
  have content := takes_takeBytes text.toByteArray.data.toList rest
  have size : text.toByteArray.data.toList.length = text.utf8ByteSize := by simp
  have whole : (⟨text.toByteArray.data.toList.toArray⟩ : ByteArray) = text.toByteArray := by simp
  rw [size] at content
  rw [takeText, ofText, List.append_assoc, bind_of_ok (takes_takeNat fits _), bind_of_ok content,
    whole, fromUTF8?_toByteArray]
  rfl

/-- An option is read back from its byte and its value. -/
theorem takes_takeOption {read : Reader α} {write : α → List UInt8} {value : Option α}
    (reads : ∀ a ∈ value, Takes read (write a) a) :
    Takes (takeOption read) (ofOption write value) value := by
  cases value with
  | none => exact fun _ => rfl
  | some a => exact (reads a rfl).map some

/-- One more item is taken before the others. -/
theorem takes_takeMany_succ {read : Reader α} {count : Nat} {bytes more : List UInt8} {a : α}
    {items : List α} (first : Takes read bytes a)
    (others : Takes (takeMany read count) more items) :
    Takes (takeMany read (count + 1)) (bytes ++ more) (a :: items) :=
  first.bind (others.map (a :: ·))

/-- Elements are taken back one after the other if each of them is. -/
theorem takes_takeMany {read : Reader β} {write : α → List UInt8} {back : α → β}
    {items : List α} (reads : ∀ item ∈ items, Takes read (write item) (back item)) :
    Takes (takeMany read items.length) (items.flatMap write) (items.map back) := by
  induction items with
  | nil => exact takes_pure []
  | cons first rest ih =>
      rw [List.forall_mem_cons] at reads
      exact takes_takeMany_succ reads.1 (ih reads.2)

/-- A list is read back from its length and its items. -/
theorem takes_takeList {read : Reader β} {write : α → List UInt8} {back : α → β}
    {items : List α} (fits : items.length < UInt64.size)
    (reads : ∀ item ∈ items, Takes read (write item) (back item)) :
    Takes (takeList read) (ofList write items) (items.map back) :=
  (takes_takeNat fits).bind (takes_takeMany reads)

/-! ## More bytes change nothing -/

/-- More bytes behind the ones that are read change nothing, unless the reader came to
their end. The second reader stands for the first one with more levels. -/
def Stable (read deeper : Reader α) : Prop :=
  ∀ bytes more, read bytes = .error .endOfInput ∨
    deeper (bytes ++ more) = (read bytes).map fun taken => (taken.1, taken.2 ++ more)

/-- A reader that takes the whole comes to the end on every part of it. -/
theorem Stable.endOfInput {read deeper : Reader α} (stable : Stable read deeper)
    {whole part : List UInt8} {a : α} (taken : Takes deeper whole a) (cut : part <+: whole)
    (strict : part ≠ whole) : read part = .error .endOfInput := by
  obtain ⟨missing, rfl⟩ := cut
  have all := taken []
  rw [List.append_nil] at all
  rcases stable part missing with ended | same
  · exact ended
  · rw [all] at same
    cases answer : read part with
    | error fault =>
        rw [answer] at same
        cases same
    | ok taken =>
        rw [answer] at same
        have rest := congrArg Prod.snd (Except.ok.inj same)
        have none_missing : missing = [] := (List.append_eq_nil_iff.mp rest.symm).2
        rw [none_missing, List.append_nil] at strict
        exact absurd rfl strict

/-- A value that is known needs no bytes. -/
theorem stable_pure (a : α) : Stable (pure a) (pure a) :=
  fun _ _ => .inr rfl

/-- A fault that is thrown at once depends on no bytes. -/
theorem stable_throw (fault : PackedFault) : Stable (throw fault : Reader α) (throw fault) :=
  fun _ _ => .inr rfl

/-- Readers that go on alike do so one after the other. -/
theorem Stable.bind {read deeper : Reader α} {next further : α → Reader β}
    (first : Stable read deeper) (second : ∀ a, Stable (next a) (further a)) :
    Stable (read >>= next) (deeper >>= further) := by
  intro bytes more
  cases answer : read bytes with
  | error fault =>
      rw [bind_of_error answer]
      rcases first bytes more with ended | same
      · rw [answer] at ended
        cases ended
        exact .inl rfl
      · rw [answer] at same
        exact .inr (bind_of_error same further)
  | ok taken =>
      obtain ⟨a, rest⟩ := taken
      rw [bind_of_ok answer]
      rcases first bytes more with ended | same
      · rw [answer] at ended
        cases ended
      · rw [answer] at same
        rw [bind_of_ok same]
        exact second a rest more

/-- What is made of the value read does not matter. -/
theorem Stable.map {read deeper : Reader α} (stable : Stable read deeper) (f : α → β) :
    Stable (f <$> read) (f <$> deeper) := by
  rw [← bind_pure_comp, ← bind_pure_comp]
  exact stable.bind fun a => stable_pure (f a)

/-- Groups of seven bits end at the same byte whatever follows. -/
theorem stable_takeGroups (last groups : Nat) :
    Stable (takeGroups last groups) (takeGroups last groups) := by
  induction groups with
  | zero => exact fun _ _ => .inr rfl
  | succ groups ih =>
      intro bytes more
      cases bytes with
      | nil => exact .inl rfl
      | cons byte rest =>
          simp only [List.cons_append, takeGroups]
          by_cases final : byte.toNat < 128
          · right
            rw [if_pos final, if_pos final]
            split <;> rfl
          · rw [if_neg final, if_neg final]
            rcases ih rest more with ended | same
            · rw [ended]
              exact .inl rfl
            · rw [same]
              cases answer : takeGroups last groups rest with
              | error fault => exact .inr rfl
              | ok taken => exact .inr rfl

/-- A length is read alike whatever follows it. -/
theorem stable_takeNat : Stable takeNat takeNat :=
  stable_takeGroups 1 10

/-- A variant number is read alike whatever follows it. -/
theorem stable_takeTag : Stable takeTag takeTag :=
  stable_takeGroups 15 5

/-- A word of 64 bits is read alike whatever follows it. -/
theorem stable_takeWord64 : Stable takeWord64 takeWord64 :=
  stable_takeNat.map UInt64.ofNat

/-- The first byte stays the first. -/
theorem stable_takeByte : Stable takeByte takeByte := by
  intro bytes more
  cases bytes with
  | nil => exact .inl rfl
  | cons byte rest => exact .inr rfl

/-- The first bytes stay the first. -/
theorem stable_takeBytes (count : Nat) : Stable (takeBytes count) (takeBytes count) := by
  intro bytes more
  unfold takeBytes
  by_cases few : bytes.length < count
  · exact .inl (if_pos few)
  · right
    have enough : count ≤ bytes.length := Nat.le_of_not_lt few
    rw [if_neg few, if_neg (by rw [List.length_append]; omega),
      List.take_append_of_le_length enough, List.drop_append_of_le_length enough]
    rfl

/-- The bits of a number are read alike whatever follows them. -/
theorem stable_takeFloat : Stable takeFloat takeFloat :=
  (stable_takeBytes 8).bind fun _ => stable_pure _

/-- A truth value is read alike whatever follows it. -/
theorem stable_takeBool : Stable takeBool takeBool := by
  refine stable_takeByte.bind fun byte => ?_
  split
  · exact stable_pure false
  · split
    · exact stable_pure true
    · exact stable_throw .badBool

/-- A text is read alike whatever follows it. -/
theorem stable_takeText : Stable takeText takeText := by
  refine stable_takeNat.bind fun size => (stable_takeBytes size).bind fun bytes => ?_
  split
  · exact stable_pure _
  · exact stable_throw .badText

/-- An option is read alike if its value is. -/
theorem stable_takeOption {read deeper : Reader α} (stable : Stable read deeper) :
    Stable (takeOption read) (takeOption deeper) := by
  refine stable_takeByte.bind fun byte => ?_
  split
  · exact stable_pure none
  · split
    · exact stable.map some
    · exact stable_throw .badOption

/-- So many items are read alike if each one is. -/
theorem stable_takeMany {read deeper : Reader α} (stable : Stable read deeper) (count : Nat) :
    Stable (takeMany read count) (takeMany deeper count) := by
  induction count with
  | zero => exact stable_pure []
  | succ count ih => exact stable.bind fun item => ih.bind fun items => stable_pure (item :: items)

/-- A list is read alike if its items are. -/
theorem stable_takeList {read deeper : Reader α} (stable : Stable read deeper) :
    Stable (takeList read) (takeList deeper) :=
  stable_takeNat.bind fun count => stable_takeMany stable count

end Packed

end WordMachine
