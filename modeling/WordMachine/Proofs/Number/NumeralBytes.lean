import Mathlib.Data.List.TakeWhile
import WordMachine.Proofs.Number.Numerals

/-! # Numerals are told by their bytes

Whether a text is a numeral can be told from its bytes in UTF-8: a scan moves an offset over an
optional sign, digits, an optional point with digits and an optional exponent, and asks whether it
is at the end. The first byte of a character beyond ASCII is none of those that the scan looks for,
so every offset that it comes to has a rest of the text behind it (`Text.StandsAt`), and the scan
accepts what the reader of numerals reads (`Numeral.scan_eq_isSome_read?`).
-/

namespace WordMachine

namespace Text

/-! ## Bytes and offsets -/

/-- The bytes of characters in UTF-8. -/
def bytes (cs : List Char) : List UInt8 :=
  cs.flatMap String.utf8EncodeChar

/-- At an offset into the bytes of a text, some characters of the text are left. -/
def StandsAt (cs : List Char) (offset : Nat) (rest : List Char) : Prop :=
  ∃ before, cs = before ++ rest ∧ offset = (bytes before).length

/-- The bytes of a text are those of its characters. -/
theorem bytes_toList (text : String) : bytes text.toList = text.toByteArray.data.toList := by
  conv_rhs => rw [← String.ofList_toList (s := text), String.toByteArray_ofList, List.utf8Encode]
  rw [bytes]
  simp

/-- The byte of a character in ASCII is its code, and the first byte of another one is beyond. -/
theorem exists_utf8EncodeChar (c : Char) :
    ∃ byte after, String.utf8EncodeChar c = byte :: after ∧
      (c.toNat < 128 → byte = c.toUInt8 ∧ after = []) ∧ (128 ≤ c.toNat → 128 ≤ byte.toNat) := by
  have lead (n : Nat) (below : n < 256) (beyond : 128 ≤ n) : 128 ≤ (UInt8.ofNat n).toNat := by
    rw [UInt8.toNat_ofNat', Nat.mod_eq_of_lt below]
    exact beyond
  change ∃ byte after, _ ∧ (c.val.toNat < 128 → _) ∧ (128 ≤ c.val.toNat → _)
  unfold String.utf8EncodeChar
  dsimp only
  split
  · exact ⟨_, _, rfl, fun _ => ⟨rfl, rfl⟩, fun beyond => by omega⟩
  split
  · exact ⟨_, _, rfl, fun ascii => by omega, fun _ => lead _ (by omega) (by omega)⟩
  split
  · exact ⟨_, _, rfl, fun ascii => by omega, fun _ => lead _ (by omega) (by omega)⟩
  · exact ⟨_, _, rfl, fun ascii => by omega, fun _ => lead _ (by omega) (by omega)⟩

/-- Bytes of texts that are joined are joined. -/
theorem bytes_append (first second : List Char) :
    bytes (first ++ second) = bytes first ++ bytes second :=
  List.flatMap_append

theorem bytes_eq_nil_iff {cs : List Char} : bytes cs = [] ↔ cs = [] := by
  cases cs with
  | nil => exact iff_of_true rfl rfl
  | cons c rest => simp [bytes, String.utf8EncodeChar_ne_nil]

/-- A test of bytes tells the characters of another test: it is the same test for the codes of
ASCII, and both refuse everything beyond. -/
structure Tells (test : UInt8 → Bool) (holds : Char → Bool) : Prop where
  ascii : ∀ c : Char, c.toNat < 128 → test c.toUInt8 = holds c
  beyond : ∀ byte : UInt8, 128 ≤ byte.toNat → test byte = false
  other : ∀ c : Char, 128 ≤ c.toNat → holds c = false

/-- The code of a character in ASCII fits into a byte. -/
theorem toNat_toUInt8 {c : Char} (ascii : c.toNat < 128) : c.toUInt8.toNat = c.toNat := by
  change (UInt8.ofNat c.toNat).toNat = c.toNat
  rw [UInt8.toNat_ofNat', Nat.mod_eq_of_lt (by omega)]

/-- The test for one character. -/
theorem tells_eq {d : Char} (known : d.toNat < 128) : Tells (· == d.toUInt8) (· == d) where
  ascii c small := by
    rw [Bool.eq_iff_iff, beq_iff_eq, beq_iff_eq, ← UInt8.toNat_inj, toNat_toUInt8 small,
      toNat_toUInt8 known]
    exact Char.toNat_inj
  beyond byte large := by
    rw [beq_eq_false_iff_ne]
    rintro rfl
    rw [toNat_toUInt8 known] at large
    omega
  other c large := by
    rw [beq_eq_false_iff_ne]
    rintro rfl
    omega

/-- Tests that tell characters do so together. -/
theorem Tells.or {test test' : UInt8 → Bool} {holds holds' : Char → Bool}
    (tells : Tells test holds) (tells' : Tells test' holds') :
    Tells (fun byte => test byte || test' byte) fun c => holds c || holds' c where
  ascii c small := by rw [tells.ascii c small, tells'.ascii c small]
  beyond byte large := by rw [tells.beyond byte large, tells'.beyond byte large, Bool.or_false]
  other c large := by rw [tells.other c large, tells'.other c large, Bool.or_false]

namespace StandsAt

variable {cs rest : List Char} {offset : Nat} {test : UInt8 → Bool} {holds : Char → Bool}

theorem start (cs : List Char) : StandsAt cs 0 cs :=
  ⟨[], rfl, rfl⟩

/-- An offset is at the end exactly if nothing is left. -/
theorem eq_length_iff (stands : StandsAt cs offset rest) :
    offset = (bytes cs).length ↔ rest = [] := by
  obtain ⟨before, rfl, rfl⟩ := stands
  rw [bytes_append, List.length_append, Nat.left_eq_add, List.length_eq_zero_iff,
    bytes_eq_nil_iff]

/-- The byte at an offset is told like the first character of what is left. -/
theorem any_getElem? (stands : StandsAt cs offset rest) (tells : Tells test holds) :
    (bytes cs)[offset]?.any test = rest.head?.any holds := by
  obtain ⟨before, rfl, rfl⟩ := stands
  rw [bytes_append, List.getElem?_append_right (Nat.le_refl _), Nat.sub_self]
  cases rest with
  | nil => rfl
  | cons c rest =>
      obtain ⟨byte, after, encoded, ascii, beyond⟩ := exists_utf8EncodeChar c
      have first : (bytes (c :: rest))[0]? = some byte := by
        rw [bytes, List.flatMap_cons, encoded]
        rfl
      rw [first, List.head?_cons, Option.any_some, Option.any_some]
      rcases Nat.lt_or_ge c.toNat 128 with small | large
      · rw [(ascii small).1, tells.ascii c small]
      · rw [tells.beyond byte (beyond large), tells.other c large]

/-- A character that a test tells takes one byte. -/
theorem next {c : Char} (stands : StandsAt cs offset (c :: rest)) (tells : Tells test holds)
    (found : holds c = true) : StandsAt cs (offset + 1) rest := by
  obtain ⟨before, rfl, rfl⟩ := stands
  have small : c.toNat < 128 := by
    by_contra large
    rw [tells.other c (by omega)] at found
    cases found
  obtain ⟨byte, after, encoded, ascii, _⟩ := exists_utf8EncodeChar c
  refine ⟨before ++ [c], by simp, ?_⟩
  have one : bytes [c] = [byte] := by
    rw [bytes, List.flatMap_singleton, encoded, (ascii small).2]
  rw [bytes_append, List.length_append, one, List.length_singleton]

end StandsAt

end Text

namespace Numeral

open Text (bytes StandsAt)

/-! ## The scan -/

/-- A byte of a sign. -/
def isSignByte (byte : UInt8) : Bool :=
  byte == '+'.toUInt8 || byte == '-'.toUInt8

/-- A byte of a digit. -/
def isDigitByte (byte : UInt8) : Bool :=
  '0'.toUInt8 ≤ byte && byte ≤ '9'.toUInt8

/-- A byte that marks an exponent. -/
def isMarkByte (byte : UInt8) : Bool :=
  byte == 'e'.toUInt8 || byte == 'E'.toUInt8

/-- The offset behind a sign, if one is there. -/
def skipSign (bytes : List UInt8) (offset : Nat) : Nat :=
  if bytes[offset]?.any isSignByte then offset + 1 else offset

/-- The offset behind the digits that are there. -/
def skipDigits (bytes : List UInt8) (offset : Nat) : Nat :=
  if inside : offset < bytes.length then
    if isDigitByte bytes[offset] then skipDigits bytes (offset + 1) else offset
  else offset
termination_by bytes.length - offset

/-- The offset behind a point with its digits, if one is there, and how many digits these are. -/
def skipFraction (bytes : List UInt8) (offset : Nat) : Nat × Nat :=
  if bytes[offset]?.any (· == '.'.toUInt8) then
    let start := offset + 1
    let stop := skipDigits bytes start
    (stop, stop - start)
  else (offset, 0)

/-- Whether an exponent or nothing ends the bytes. -/
def scanExponent (bytes : List UInt8) (offset : Nat) : Bool :=
  if bytes[offset]?.any isMarkByte then
    let start := skipSign bytes (offset + 1)
    let stop := skipDigits bytes start
    stop != start && stop == bytes.length
  else offset == bytes.length

/-- Whether bytes are those of a numeral. -/
def scan (bytes : List UInt8) : Bool :=
  let start := skipSign bytes 0
  let point := skipDigits bytes start
  let (stop, fraction) := skipFraction bytes point
  if (point - start) + fraction = 0 then false else scanExponent bytes stop

/-! ## What is skipped -/

/-- A character of a sign. -/
def isSign (c : Char) : Bool :=
  c == '+' || c == '-'

/-- A character that marks an exponent. -/
def isMark (c : Char) : Bool :=
  c == 'e' || c == 'E'

theorem tells_sign : Text.Tells isSignByte isSign :=
  (Text.tells_eq (by decide)).or (Text.tells_eq (by decide))

theorem tells_mark : Text.Tells isMarkByte isMark :=
  (Text.tells_eq (by decide)).or (Text.tells_eq (by decide))

theorem tells_point : Text.Tells (· == '.'.toUInt8) (· == '.') :=
  Text.tells_eq (by decide)

/-- Digits are told by the bounds of their codes. -/
theorem tells_digit : Text.Tells isDigitByte Char.isDigit where
  ascii c small := by
    rw [Bool.eq_iff_iff, isDigitByte, Char.isDigit]
    simp only [Bool.and_eq_true, decide_eq_true_eq, UInt8.le_iff_toNat_le, UInt32.le_iff_toNat_le,
      Text.toNat_toUInt8 small, ge_iff_le]
    rfl
  beyond byte large := by
    rw [isDigitByte, Bool.and_eq_false_imp]
    intro _
    rw [decide_eq_false_iff_not, UInt8.le_iff_toNat_le]
    have last : '9'.toUInt8.toNat = 57 := rfl
    omega
  other c large := by
    rw [Char.isDigit, Bool.and_eq_false_imp]
    intro _
    rw [decide_eq_false_iff_not, UInt32.le_iff_toNat_le]
    have last : '9'.val.toNat = 57 := rfl
    have same : c.toNat = c.val.toNat := rfl
    omega

theorem noSign_iff {cs : List Char} : NoSign cs ↔ cs.head?.any isSign = false := by
  cases cs with
  | nil => exact iff_of_true nofun rfl
  | cons c rest => simp [NoSign, isSign]

/-- One character of a sign is taken. -/
theorem takeSign_of_isSign {c : Char} (signed : isSign c = true) (rest : List Char) :
    (takeSign (c :: rest)).2 = rest := by
  simp only [isSign, Bool.or_eq_true, beq_iff_eq] at signed
  rcases signed with rfl | rfl <;> rfl

variable {cs rest : List Char} {offset : Nat}

/-- A sign that is taken is skipped. -/
theorem standsAt_skipSign (stands : StandsAt cs offset rest) :
    StandsAt cs (skipSign (bytes cs) offset) (takeSign rest).2 := by
  unfold skipSign
  rw [stands.any_getElem? tells_sign]
  cases signed : rest.head?.any isSign with
  | false =>
      rw [takeSign_of_noSign (noSign_iff.mpr signed)]
      exact stands
  | true =>
      cases rest with
      | nil => cases signed
      | cons c rest =>
          rw [takeSign_of_isSign signed]
          exact stands.next tells_sign signed

/-- Digits are skipped one by one. -/
theorem skipDigits_eq (bytes : List UInt8) (offset : Nat) :
    skipDigits bytes offset =
      if bytes[offset]?.any isDigitByte then skipDigits bytes (offset + 1) else offset := by
  rw [skipDigits]
  split
  · next inside => rw [List.getElem?_eq_getElem inside, Option.any_some]
  · next outside =>
      rw [List.getElem?_eq_none (Nat.le_of_not_lt outside)]
      rfl

/-- Digits are skipped up to the first other character, and each takes one byte. -/
theorem standsAt_skipDigits (stands : StandsAt cs offset rest) :
    StandsAt cs (skipDigits (bytes cs) offset) (rest.dropWhile Char.isDigit) ∧
      skipDigits (bytes cs) offset = offset + (rest.takeWhile Char.isDigit).length := by
  induction rest generalizing offset with
  | nil =>
      rw [skipDigits_eq, stands.any_getElem? tells_digit]
      exact ⟨stands, rfl⟩
  | cons c rest ih =>
      rw [skipDigits_eq, stands.any_getElem? tells_digit, List.head?_cons, Option.any_some]
      cases digit : c.isDigit with
      | true =>
          obtain ⟨stands', count⟩ := ih (stands.next tells_digit digit)
          rw [if_pos rfl, List.dropWhile_cons_of_pos digit, List.takeWhile_cons_of_pos digit,
            List.length_cons]
          exact ⟨stands', by omega⟩
      | false =>
          have other : ¬c.isDigit = true := by
            rw [digit]
            exact Bool.false_ne_true
          rw [if_neg Bool.false_ne_true, List.dropWhile_cons_of_neg other,
            List.takeWhile_cons_of_neg other]
          exact ⟨stands, rfl⟩

/-- Without a point there is no fraction. -/
theorem takeFraction_of_other {cs : List Char} (other : cs.head?.any (· == '.') = false) :
    takeFraction cs = ([], cs) := by
  unfold takeFraction
  split
  · cases other
  · rfl

/-- A fraction that is taken is skipped, and its digits are counted. -/
theorem standsAt_skipFraction (stands : StandsAt cs offset rest) :
    StandsAt cs (skipFraction (bytes cs) offset).1 (takeFraction rest).2 ∧
      (skipFraction (bytes cs) offset).2 = (takeFraction rest).1.length := by
  unfold skipFraction
  rw [stands.any_getElem? tells_point]
  cases pointed : rest.head?.any (· == '.') with
  | false =>
      rw [takeFraction_of_other pointed]
      exact ⟨stands, rfl⟩
  | true =>
      cases rest with
      | nil => cases pointed
      | cons c rest =>
          obtain ⟨stands', count⟩ := standsAt_skipDigits (stands.next tells_point pointed)
          cases beq_iff_eq.mp pointed
          refine ⟨stands', ?_⟩
          change skipDigits (bytes cs) (offset + 1) - (offset + 1) = _
          rw [count]
          exact Nat.add_sub_cancel_left _ _

theorem isSome_readExponent?_cons (c : Char) (tail : List Char) :
    (readExponent? (c :: tail)).isSome = true ↔
      isMark c = true ∧ (takeSign tail).2 ≠ [] ∧ (takeSign tail).2.all Char.isDigit = true := by
  simp [readExponent?, isMark]

/-- A text is digits exactly if some digits start it and nothing is left behind them. -/
theorem nonempty_and_all_iff {digits : List Char} :
    digits ≠ [] ∧ digits.all Char.isDigit = true ↔
      digits.takeWhile Char.isDigit ≠ [] ∧ digits.dropWhile Char.isDigit = [] := by
  rw [List.dropWhile_eq_nil_iff, List.all_eq_true]
  refine and_congr_left fun all => ?_
  rw [List.takeWhile_eq_self_iff.mpr all]

/-- An exponent is scanned where one is read, or nothing where nothing is left. -/
theorem scanExponent_eq (stands : StandsAt cs offset rest) :
    scanExponent (bytes cs) offset = (readExponent? rest).isSome := by
  unfold scanExponent
  rw [stands.any_getElem? tells_mark]
  cases rest with
  | nil =>
      rw [stands.eq_length_iff.mpr rfl]
      exact beq_self_eq_true _
  | cons c tail =>
      rw [Bool.eq_iff_iff, isSome_readExponent?_cons, List.head?_cons, Option.any_some]
      cases marked : isMark c with
      | false =>
          have unfinished : offset ≠ (bytes cs).length := stands.eq_length_iff.not.mpr nofun
          simp [unfinished]
      | true =>
          have start := standsAt_skipSign (stands.next tells_mark marked)
          obtain ⟨stop, count⟩ := standsAt_skipDigits start
          rw [if_pos rfl, Bool.and_eq_true, bne_iff_ne, beq_iff_eq, stop.eq_length_iff, count,
            nonempty_and_all_iff]
          simp

/-- **A scan of the bytes accepts the texts that the reader of numerals reads.** -/
theorem scan_eq_isSome_read? (cs : List Char) : scan (bytes cs) = (read? cs).isSome := by
  have start := standsAt_skipSign (StandsAt.start cs)
  obtain ⟨point, whole⟩ := standsAt_skipDigits start
  obtain ⟨stop, fraction⟩ := standsAt_skipFraction point
  have digits : skipDigits (bytes cs) (skipSign (bytes cs) 0) - skipSign (bytes cs) 0 =
      ((takeSign cs).2.takeWhile Char.isDigit).length := by omega
  unfold scan read?
  dsimp only
  rw [digits, fraction, scanExponent_eq stop, ← List.length_append]
  by_cases empty : (takeSign cs).2.takeWhile Char.isDigit ++
      (takeFraction ((takeSign cs).2.dropWhile Char.isDigit)).1 = []
  · rw [if_pos (List.length_eq_zero_iff.mpr empty), if_pos empty]
    rfl
  · rw [if_neg (List.length_eq_zero_iff.not.mpr empty), if_neg empty, Option.isSome_map]

end Numeral

end WordMachine
