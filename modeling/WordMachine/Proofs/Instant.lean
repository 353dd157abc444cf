import WordMachine.Instant
import WordMachine.Proofs.Text

/-! # The text of an instant reads back

Every field of an instant is written with a fixed number of digits, or with a sign in
front, and is followed by a mark that is no digit. The reader takes the fields apart
again and finds the date and the time that were written.
-/

namespace WordMachine

namespace Instant

/-- A digit is no blank. -/
theorem isBlank_of_isDigit {c : Char} (digit : c.isDigit = true) : Text.isBlank c = false := by
  simp only [Char.isDigit, Bool.and_eq_true, decide_eq_true_eq, ge_iff_le, UInt32.le_iff_toNat_le]
    at digit
  have low : 48 ≤ c.toNat := digit.1
  have high : c.toNat ≤ 57 := digit.2
  simp only [Text.isBlank, Text.inRanges, Text.blankRanges, List.any_cons, List.any_nil,
    Bool.or_eq_false_iff, Bool.and_eq_false_iff, decide_eq_false_iff_not, and_true]
  omega

/-- Nothing is dropped in front of a visible character. -/
theorem dropBlanks_cons {c : Char} (visible : Text.isBlank c = false) (rest : List Char) :
    Text.dropBlanks (c :: rest) = c :: rest := by
  rw [Text.dropBlanks, List.dropWhile_cons_of_neg (by simp [visible])]

/-- A number is taken off the front of a text if it has as many digits as are taken or if
it ends there. -/
theorem takeNumber?_append {width : Nat} {digits rest : List Char} (nonempty : digits ≠ [])
    (all : ∀ c ∈ digits, c.isDigit = true) (fits : digits.length ≤ width)
    (ends : digits.length = width ∨ Text.EndsDigits rest) :
    takeNumber? width (digits ++ rest) = some (Text.ofDigits digits, rest) := by
  obtain ⟨first, others, rfl⟩ := List.exists_cons_of_ne_nil nonempty
  have visible := isBlank_of_isDigit (all first List.mem_cons_self)
  rw [takeNumber?, List.cons_append, dropBlanks_cons visible, ← List.cons_append]
  have stops : (rest.take (width - (first :: others).length)).takeWhile Char.isDigit = [] := by
    rcases ends with exact_width | ends
    · rw [exact_width, Nat.sub_self, List.take_zero, List.takeWhile_nil]
    · apply Text.takeWhile_isDigit_of_ends
      cases rest with
      | nil =>
          rw [List.take_nil]
          exact ends
      | cons c rest =>
          cases width - (first :: others).length with
          | zero => exact fun _ none => nomatch none
          | succ more => exact Text.endsDigits_cons (ends c rfl) _
  have taken : ((first :: others ++ rest).take width).takeWhile Char.isDigit = first :: others := by
    rw [List.take_append, List.take_of_length_le fits, List.takeWhile_append_of_pos all, stops,
      List.append_nil]
  simp only [taken, nonempty, ↓reduceIte, List.drop_left]

/-- Two digits are taken as their number. -/
theorem takeNumber?_pair {n : Nat} (small : n < 100) (rest : List Char) :
    takeNumber? 2 (Text.paddedDigits 2 n ++ rest) = some (n, rest) := by
  have nonempty : Text.paddedDigits 2 n ≠ [] :=
    List.ne_nil_of_length_pos (by rw [Text.length_paddedDigits]; decide)
  rw [takeNumber?_append nonempty (fun _ => Text.isDigit_of_mem_paddedDigits)
    (Text.length_paddedDigits 2 n).le (.inl (Text.length_paddedDigits 2 n)),
    Text.ofDigits_paddedDigits small]

/-- A year of four digits or more is taken as a whole. -/
theorem takeNumber?_signedYear (n : Nat) {rest : List Char} (ends : Text.EndsDigits rest) :
    let digits := if n < 10000 then Text.paddedDigits 4 n else Text.digitsOf n
    (digits ++ rest).head?.any Char.isDigit = true ∧
      takeNumber? (digits ++ rest).length (digits ++ rest) = some (n, rest) := by
  intro digits
  have nonempty : digits ≠ [] := by
    unfold digits
    split
    · exact List.ne_nil_of_length_pos (by rw [Text.length_paddedDigits]; decide)
    · exact Text.digitsOf_ne_nil n
  have all : ∀ c ∈ digits, c.isDigit = true := by
    unfold digits
    split
    · exact fun _ => Text.isDigit_of_mem_paddedDigits
    · exact fun _ => Text.isDigit_of_mem_digitsOf
  have value : Text.ofDigits digits = n := by
    unfold digits
    split
    · next small => exact Text.ofDigits_paddedDigits small
    · exact Text.ofDigits_digitsOf n
  refine ⟨?_, ?_⟩
  · obtain ⟨c, others, same⟩ := List.exists_cons_of_ne_nil nonempty
    rw [same] at all ⊢
    exact all c List.mem_cons_self
  · rw [takeNumber?_append nonempty all (by simp) (.inr ends), value]

/-- A year is read back, before the year zero and after. -/
theorem takeYear?_yearText (year : Int) {rest : List Char} (ends : Text.EndsDigits rest) :
    takeYear? (yearText year ++ rest) = some (year, rest) := by
  unfold yearText
  split
  · next range =>
      -- Four digits: the field starts with none of the signs.
      have length := Text.length_paddedDigits 4 year.toNat
      have nonempty : Text.paddedDigits 4 year.toNat ≠ [] :=
        List.ne_nil_of_length_pos (by rw [length]; decide)
      have taken : takeNumber? 4 (Text.paddedDigits 4 year.toNat ++ rest) =
          some (year.toNat, rest) := by
        rw [takeNumber?_append nonempty (fun _ => Text.isDigit_of_mem_paddedDigits) length.le
          (.inl length), Text.ofDigits_paddedDigits (by omega)]
      obtain ⟨c, others, same⟩ := List.exists_cons_of_ne_nil nonempty
      have digit : c.isDigit = true :=
        Text.isDigit_of_mem_paddedDigits (same ▸ List.mem_cons_self)
      rw [same, List.cons_append] at taken ⊢
      rw [takeYear?, dropBlanks_cons (isBlank_of_isDigit digit)]
      split
      · next sign =>
          obtain ⟨rfl, _⟩ := List.cons.inj sign
          exact absurd digit (by decide)
      · next sign =>
          obtain ⟨rfl, _⟩ := List.cons.inj sign
          exact absurd digit (by decide)
      · simp only [taken, Option.bind_eq_bind, Option.bind_some, Option.pure_def,
          Int.toNat_of_nonneg range.1]
  · next range =>
      obtain ⟨starts, taken⟩ := takeNumber?_signedYear year.natAbs ends
      by_cases negative : year < 0
      · rw [if_pos negative, List.cons_append, takeYear?, dropBlanks_cons (by decide)]
        simp only [starts, taken, guard, ↓reduceIte, Option.bind_eq_bind, Option.bind_some,
          Option.pure_def, Option.some.injEq, Prod.mk.injEq, and_true]
        omega
      · rw [if_neg negative, List.cons_append, takeYear?, dropBlanks_cons (by decide)]
        simp only [starts, taken, guard, ↓reduceIte, Option.bind_eq_bind, Option.bind_some,
          Option.pure_def, Option.some.injEq, Prod.mk.injEq, and_true]
        omega

/-- A mark is taken where it stands. -/
theorem takeMark?_cons {mark : Char} (visible : Text.isBlank mark = false) (rest : List Char) :
    takeMark? mark (mark :: rest) = some rest := by
  rw [takeMark?, dropBlanks_cons visible]
  exact if_pos rfl

/-- A fraction of at most nine digits is scaled to nanoseconds. -/
theorem takeNanos?_paddedDigits {width n : Nat} (some_digits : 0 < width) (few : width ≤ 9)
    (fits : n < 10 ^ width) {rest : List Char} (ends : Text.EndsDigits rest) :
    takeNanos? ('.' :: (Text.paddedDigits width n ++ rest)) =
      some (n * 10 ^ (9 - width), rest) := by
  have length := Text.length_paddedDigits width n
  have nonempty : Text.paddedDigits width n ≠ [] :=
    List.ne_nil_of_length_pos (by rw [length]; exact some_digits)
  have taken := Text.takeWhile_isDigit_append
    (fun _ => @Text.isDigit_of_mem_paddedDigits width n _) ends
  have kept : (Text.paddedDigits width n).take 9 = Text.paddedDigits width n :=
    List.take_of_length_le (by rw [length]; exact few)
  have left : (Text.paddedDigits width n ++ rest).drop width = rest := List.drop_left' length
  simp only [takeNanos?, taken, kept, nonempty, ↓reduceIte, Text.ofDigits_paddedDigits fits, length,
    left, Nat.pow_eq]

/-- The fraction of a second is taken off the front of a text. -/
theorem takeNanos?_fractionText {nanos : Nat} (small : nanos < 1000000000) :
    takeNanos? (fractionText nanos ++ ['Z']) = some (nanos, ['Z']) := by
  have ends : Text.EndsDigits ['Z'] := Text.endsDigits_cons (by decide) []
  unfold fractionText
  split
  · next zero =>
      subst zero
      rfl
  · split
    · rw [List.cons_append, takeNanos?_paddedDigits (by decide) (by decide) (by omega) ends]
      simp only [Option.some.injEq, Prod.mk.injEq, and_true]
      omega
    · split
      · rw [List.cons_append, takeNanos?_paddedDigits (by decide) (by decide) (by omega) ends]
        simp only [Option.some.injEq, Prod.mk.injEq, and_true]
        omega
      · rw [List.cons_append, takeNanos?_paddedDigits (by decide) (by decide) (by omega) ends]
        simp only [Option.some.injEq, Prod.mk.injEq, and_true]
        omega

/-- An instant is found from its fields in UTC. -/
theorem ofLocal?_zero (t : Instant) :
    ofLocal? t.year t.month t.day t.hour t.minute t.second t.nanos 0 = some t := by
  obtain ⟨year, month, day, hour, minute, second, nanos, date, time⟩ := t
  have bounds := time
  simp only [Calendar.isTime, Bool.and_eq_true, decide_eq_true_eq] at bounds
  have early : ¬((hour * 60 + minute : Nat) : Int) - 0 < 0 := by omega
  have late : ¬1440 ≤ ((hour * 60 + minute : Nat) : Int) - 0 := by omega
  have minutes : ((((hour * 60 + minute : Nat) : Int) - 0) % 1440).toNat = hour * 60 + minute := by
    omega
  have hours : (hour * 60 + minute) / 60 = hour := by omega
  have rest : (hour * 60 + minute) % 60 = minute := by omega
  simp only [ofLocal?, date, time, Bool.and_self, guard, ↓reduceIte, Option.bind_eq_bind,
    Option.pure_def, Option.bind_some, early, late, minutes, hours, rest, ofFields?, ↓reduceDIte]

/-- The characters of an instant read back. -/
theorem readChars?_chars (t : Instant) : readChars? t.chars = some t := by
  have date := t.date_valid
  have time := t.time_valid
  simp only [Calendar.isDate, Bool.and_eq_true, decide_eq_true_eq] at date
  simp only [Calendar.isTime, Bool.and_eq_true, decide_eq_true_eq] at time
  have month : t.month < 100 := by omega
  have day : t.day < 100 := by
    have length : Calendar.monthLength t.year t.month ≤ 31 := by
      unfold Calendar.monthLength
      split <;> split <;> omega
    omega
  have hour : t.hour < 100 := by omega
  have minute : t.minute < 100 := by omega
  have second : t.second < 100 := by omega
  have dash : Text.isBlank '-' = false := by decide
  have colon : Text.isBlank ':' = false := by decide
  simp only [chars, List.append_assoc, List.cons_append]
  refine Option.bind_eq_some_iff.mpr ⟨_, takeYear?_yearText _ (Text.endsDigits_cons rfl _), ?_⟩
  refine Option.bind_eq_some_iff.mpr ⟨_, takeMark?_cons dash _, ?_⟩
  refine Option.bind_eq_some_iff.mpr ⟨_, takeNumber?_pair month _, ?_⟩
  refine Option.bind_eq_some_iff.mpr ⟨_, takeMark?_cons dash _, ?_⟩
  refine Option.bind_eq_some_iff.mpr ⟨_, takeNumber?_pair day _, ?_⟩
  refine Option.bind_eq_some_iff.mpr ⟨_, rfl, ?_⟩
  refine Option.bind_eq_some_iff.mpr ⟨_, takeNumber?_pair hour _, ?_⟩
  refine Option.bind_eq_some_iff.mpr ⟨_, takeMark?_cons colon _, ?_⟩
  refine Option.bind_eq_some_iff.mpr ⟨_, takeNumber?_pair minute _, ?_⟩
  refine Option.bind_eq_some_iff.mpr ⟨_, takeMark?_cons colon _, ?_⟩
  refine Option.bind_eq_some_iff.mpr ⟨_, takeNumber?_pair second _, ?_⟩
  refine Option.bind_eq_some_iff.mpr ⟨_, takeNanos?_fractionText time.2, ?_⟩
  refine Option.bind_eq_some_iff.mpr ⟨(0, []), rfl, ?_⟩
  exact Option.bind_eq_some_iff.mpr ⟨(), rfl, ofLocal?_zero t⟩

/-- The text of an instant reads back. -/
theorem read?_text (t : Instant) : read? t.text = some t := by
  rw [read?, text, String.toList_ofList, readChars?_chars]

end Instant

end WordMachine
