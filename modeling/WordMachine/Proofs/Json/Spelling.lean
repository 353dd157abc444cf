import Mathlib.Data.List.Basic
import WordMachine.Json.Reader
import WordMachine.Json.Writer
import WordMachine.Proofs.Text

/-! # Spellings of JSON values

A spelling of a value is a text of strict JSON for it, with blanks wherever JSON allows
them between the parts of arrays and objects. The reader takes every spelling off the
front of a text and gives back the value that it spells (`takeValue?_of_spells`).
Writers only have to write spellings.
-/

namespace WordMachine

namespace Json

/-! ## Blanks -/

/-- Blanks in front of another character are skipped, all of them. -/
theorem skipSpace_append {blanks : List Char} (blank : ∀ c ∈ blanks, isSpace c = true) {c : Char}
    (other : isSpace c = false) (rest : List Char) :
    skipSpace (blanks ++ c :: rest) = c :: rest := by
  rw [skipSpace, List.dropWhile_append_of_pos blank, List.dropWhile_cons_of_neg (by simp [other])]

/-! ## Numbers -/

/-- A character with which a number may go on. -/
def continuesNumber (c : Char) : Bool :=
  c.isDigit || c == '.' || c == 'e' || c == 'E'

/-- A text that cannot continue a number before it. -/
def EndsNumber (rest : List Char) : Prop :=
  ∀ c ∈ rest.head?, continuesNumber c = false

/-- Digits, at least one. -/
structure Digits (cs : List Char) : Prop where
  nonempty : cs ≠ []
  digits : ∀ c ∈ cs, c.isDigit = true

/-- A whole part: zero, or digits that do not start with zero. -/
def IsWhole (cs : List Char) : Prop :=
  cs = ['0'] ∨ Digits cs ∧ cs.head? ≠ some '0'

/-- A fraction, which may be missing. -/
def IsFraction (cs : List Char) : Prop :=
  cs = [] ∨ ∃ digits, cs = '.' :: digits ∧ Digits digits

/-- An exponent, which may be missing. -/
def IsExponent (cs : List Char) : Prop :=
  cs = [] ∨ ∃ mark sign digits, cs = mark :: sign ++ digits ∧ (mark = 'e' ∨ mark = 'E') ∧
    (sign = [] ∨ sign = ['+'] ∨ sign = ['-']) ∧ Digits digits

/-- A number without a sign. -/
def Unsigned (cs : List Char) : Prop :=
  ∃ whole fraction exponent, cs = whole ++ fraction ++ exponent ∧ IsWhole whole ∧
    IsFraction fraction ∧ IsExponent exponent

/-- The text of a number. -/
inductive NumberText : List Char → Prop where
  | unsigned {cs : List Char} : Unsigned cs → NumberText cs
  | negative {cs : List Char} : Unsigned cs → NumberText ('-' :: cs)

theorem isDigit_of_head {cs : List Char} (digits : Digits cs) :
    ∃ c rest, cs = c :: rest ∧ c.isDigit = true := by
  obtain ⟨c, rest, rfl⟩ := List.exists_cons_of_ne_nil digits.nonempty
  exact ⟨c, rest, rfl, digits.digits c List.mem_cons_self⟩

theorem IsWhole.digits {cs : List Char} (whole : IsWhole cs) : Digits cs := by
  rcases whole with rfl | ⟨digits, _⟩
  · exact ⟨by simp, by simp⟩
  · exact digits

theorem takeDigits?_append {cs rest : List Char} (digits : Digits cs)
    (ends : Text.EndsDigits rest) : takeDigits? (cs ++ rest) = some (cs, rest) := by
  rw [takeDigits?, Text.takeWhile_isDigit_append digits.digits ends,
    Text.dropWhile_isDigit_append digits.digits ends]
  exact if_neg digits.nonempty

theorem EndsNumber.noDigit {rest : List Char} (ends : EndsNumber rest) :
    Text.EndsDigits rest := by
  intro c head
  have other := ends c head
  simp only [continuesNumber, Bool.or_eq_false_iff] at other
  exact other.1.1.1

theorem takeWhole?_append {cs rest : List Char} (whole : IsWhole cs)
    (ends : Text.EndsDigits rest) : takeWhole? (cs ++ rest) = some (cs, rest) := by
  rcases whole with rfl | ⟨digits, leading⟩
  · rfl
  · obtain ⟨c, others, rfl, _⟩ := isDigit_of_head digits
    rw [← takeDigits?_append digits ends]
    simp only [List.head?_cons, ne_eq, Option.some.injEq] at leading
    unfold takeWhole?
    split
    · next same => simp_all
    · rfl

theorem takeFraction?_append {cs rest : List Char} (fraction : IsFraction cs)
    (ends : ∀ c ∈ rest.head?, c.isDigit = false ∧ c ≠ '.') :
    takeFraction? (cs ++ rest) = some (cs, rest) := by
  rcases fraction with rfl | ⟨digits, rfl, all⟩
  · cases rest with
    | nil => rfl
    | cons c rest =>
        have other := (ends c rfl).2
        rw [List.nil_append, takeFraction?]
        simp [other]
  · rw [List.cons_append, takeFraction?, takeDigits?_append all fun c head => (ends c head).1]
    rfl

theorem takeExponent?_append {cs rest : List Char} (exponent : IsExponent cs)
    (ends : EndsNumber rest) : takeExponent? (cs ++ rest) = some (cs, rest) := by
  rcases exponent with rfl | ⟨mark, sign, digits, rfl, marked, signed, all⟩
  · cases rest with
    | nil => rfl
    | cons c rest =>
        have other := ends c rfl
        simp only [continuesNumber, Bool.or_eq_false_iff, beq_eq_false_iff_ne] at other
        rw [List.nil_append, takeExponent?, if_neg (not_or.mpr ⟨other.1.2, other.2⟩)]
  · have sign_taken : takeSign (sign ++ (digits ++ rest)) = (sign, digits ++ rest) := by
      rcases signed with rfl | rfl | rfl
      · obtain ⟨c, others, rfl, digit⟩ := isDigit_of_head all
        rw [List.nil_append, List.cons_append]
        unfold takeSign
        split
        · next same =>
            simp only [List.cons.injEq] at same
            rw [same.1] at digit
            cases digit
        · next same =>
            simp only [List.cons.injEq] at same
            rw [same.1] at digit
            cases digit
        · rfl
      · rfl
      · rfl
    simp only [List.cons_append, List.append_assoc, takeExponent?, if_pos marked, sign_taken,
      takeDigits?_append all ends.noDigit, Option.map_some]

/-- A number without a sign is taken off the front of a text that cannot continue it. -/
theorem takeUnsigned?_append {cs rest : List Char} (number : Unsigned cs) (ends : EndsNumber rest) :
    takeUnsigned? (cs ++ rest) = some (cs, rest) := by
  obtain ⟨whole, fraction, exponent, rfl, is_whole, is_fraction, is_exponent⟩ := number
  have ends_fraction : ∀ c ∈ (exponent ++ rest).head?, c.isDigit = false ∧ c ≠ '.' := by
    intro c head
    rcases is_exponent with rfl | ⟨mark, sign, digits, rfl, marked, _, _⟩
    · have other := ends c head
      simp only [continuesNumber, Bool.or_eq_false_iff, beq_eq_false_iff_ne] at other
      exact ⟨other.1.1.1, other.1.1.2⟩
    · cases head
      rcases marked with rfl | rfl <;> decide
  have ends_whole : ∀ c ∈ (fraction ++ (exponent ++ rest)).head?, c.isDigit = false := by
    intro c head
    rcases is_fraction with rfl | ⟨digits, rfl, _⟩
    · exact (ends_fraction c head).1
    · cases head
      rfl
  simp only [takeUnsigned?, List.append_assoc, takeWhole?_append is_whole ends_whole,
    takeFraction?_append is_fraction ends_fraction, takeExponent?_append is_exponent ends,
    Option.bind_eq_bind, Option.bind_some, Option.pure_def]

theorem Unsigned.head {cs : List Char} (number : Unsigned cs) :
    ∃ c rest, cs = c :: rest ∧ c.isDigit = true := by
  obtain ⟨whole, fraction, exponent, rfl, is_whole, _, _⟩ := number
  rcases is_whole with rfl | ⟨digits, _⟩
  · exact ⟨'0', fraction ++ exponent, rfl, rfl⟩
  · obtain ⟨c, rest, rfl, digit⟩ := isDigit_of_head digits
    exact ⟨c, rest ++ fraction ++ exponent, rfl, digit⟩

/-- A number is taken off the front of a text that cannot continue it. -/
theorem takeNumber?_append {cs rest : List Char} (number : NumberText cs)
    (ends : EndsNumber rest) : takeNumber? (cs ++ rest) = some (cs, rest) := by
  cases number with
  | unsigned number =>
      obtain ⟨c, others, rfl, digit⟩ := number.head
      rw [← takeUnsigned?_append number ends]
      unfold takeNumber?
      split
      · next same =>
          simp only [List.cons_append, List.cons.injEq] at same
          rw [same.1] at digit
          cases digit
      · rfl
  | negative number =>
      simp only [List.cons_append, takeNumber?, takeUnsigned?_append number ends, Option.map_some]

/-! ## Strings -/

theorem hexValue?_hexDigit (n : Nat) : hexValue? (hexDigit n) = some (n % 16) := by
  have below : n % 16 < 16 := Nat.mod_lt _ (by decide)
  unfold hexDigit
  generalize n % 16 = digit at below
  revert digit
  decide

/-- An escaped character is read as the character, in one step. -/
theorem takeString?_escaped (steps : Nat) (read : Option (List Char)) (c : Char)
    (rest : List Char) :
    takeString? (steps + 1) read (escaped c ++ rest) =
      takeString? steps (read.map (c :: ·)) rest := by
  unfold escaped
  split
  · next same => subst same; simp [takeString?, escape?]
  split
  · next same => subst same; simp [takeString?, escape?]
  split
  · next same => subst same; simp [takeString?, escape?]
  split
  · next same => subst same; simp [takeString?, escape?]
  split
  · next same => subst same; simp [takeString?, escape?]
  split
  · next same => subst same; simp [takeString?, escape?]
  split
  · next same => subst same; simp [takeString?, escape?]
  split
  · next control =>
      have quad : hexQuad? '0' '0' (hexDigit (c.toNat / 16)) (hexDigit c.toNat) =
          some c.toNat := by
        have zero : hexValue? '0' = some 0 := rfl
        simp only [hexQuad?, zero, hexValue?_hexDigit, Option.bind_eq_bind, Option.bind_some,
          Option.pure_def, Option.some.injEq]
        omega
      have unit : takeUnit c.toNat rest = (.character c, rest) := by
        have high : isHighSurrogate c.toNat = false := by
          simp [isHighSurrogate]; omega
        have low : isLowSurrogate c.toNat = false := by
          simp [isLowSurrogate]; omega
        simp [takeUnit, high, low]
      simp [takeString?, quad, unit]
  · next quote backslash _ _ _ _ _ printable =>
      simp only [List.singleton_append]
      rw [takeString?.eq_def]
      split <;> simp_all

/-- A text in quotes is read up to its closing quote. -/
theorem takeString?_quoted (cs : List Char) (steps : Nat) (read rest : List Char)
    (enough : cs.length < steps) :
    takeString? steps (some read) (cs.flatMap escaped ++ '"' :: rest) =
      some (some (String.ofList (read.reverse ++ cs)), rest) := by
  induction cs generalizing steps read with
  | nil =>
      obtain ⟨steps, rfl⟩ := Nat.exists_eq_succ_of_ne_zero (Nat.ne_of_gt enough)
      simp [takeString?]
  | cons c cs ih =>
      obtain ⟨steps, rfl⟩ := Nat.exists_eq_succ_of_ne_zero (Nat.ne_of_gt (Nat.zero_lt_of_lt enough))
      rw [List.flatMap_cons, List.append_assoc, takeString?_escaped, Option.map_some,
        ih steps (c :: read) (by simpa using enough)]
      simp

theorem length_le_length_flatMap_escaped (cs : List Char) :
    cs.length ≤ (cs.flatMap escaped).length := by
  induction cs with
  | nil => exact Nat.le_refl _
  | cons c cs ih =>
      have one : 1 ≤ (escaped c).length := by
        unfold escaped
        repeat' split
        all_goals simp
      rw [List.flatMap_cons, List.length_append, List.length_cons]
      omega

theorem takeQuoted?_quoted (text : String) (rest : List Char) :
    takeQuoted? (text.toList.flatMap escaped ++ '"' :: rest) = some (some text, rest) := by
  have shorter := length_le_length_flatMap_escaped text.toList
  rw [takeQuoted?, takeString?_quoted _ _ _ _ (by
    rw [List.length_append, List.length_cons]
    omega)]
  simp

/-! ## Values -/

/-- A run of blanks. -/
def Blanks (cs : List Char) : Prop :=
  ∀ c ∈ cs, isSpace c = true

theorem blanks_nil : Blanks [] :=
  fun _ member => nomatch member

mutual

/-- A text that spells a value. -/
inductive Spells : Json → List Char → Prop where
  | null : Spells .null ['n', 'u', 'l', 'l']
  | affirmed : Spells (.bool true) ['t', 'r', 'u', 'e']
  | denied : Spells (.bool false) ['f', 'a', 'l', 's', 'e']
  | number {chars : List Char} : NumberText chars → Spells (.number chars) chars
  | text (text : String) : Spells (.string (some text)) (quoted text)
  | emptyArray : Spells (.array []) ['[', ']']
  | array {items : List Json} {cs : List Char} :
      SpellsItems items cs → Spells (.array items) ('[' :: cs)
  | emptyObject : Spells (.object []) ['{', '}']
  | object {members : List (Option String × Json)} {cs : List Char} :
      SpellsMembers members cs → Spells (.object members) ('{' :: cs)

/-- A text that spells the elements of an array and its end. -/
inductive SpellsItems : List Json → List Char → Prop where
  | last {item : Json} {before cs after : List Char} :
      Blanks before → Spells item cs → Blanks after →
        SpellsItems [item] (before ++ (cs ++ (after ++ [']'])))
  | more {item : Json} {items : List Json} {before cs after rest : List Char} :
      Blanks before → Spells item cs → Blanks after → SpellsItems items rest →
        SpellsItems (item :: items) (before ++ (cs ++ (after ++ ',' :: rest)))

/-- A text that spells the members of an object and its end. -/
inductive SpellsMembers : List (Option String × Json) → List Char → Prop where
  | last {name : String} {value : Json} {before gap cs after : List Char} :
      Blanks before → Blanks gap → Spells value cs → Blanks after →
        SpellsMembers [(some name, value)]
          (before ++ (quoted name ++ ':' :: (gap ++ (cs ++ (after ++ ['}'])))))
  | more {name : String} {value : Json} {members : List (Option String × Json)}
      {before gap cs after rest : List Char} :
      Blanks before → Blanks gap → Spells value cs → Blanks after → SpellsMembers members rest →
        SpellsMembers ((some name, value) :: members)
          (before ++ (quoted name ++ ':' :: (gap ++ (cs ++ (after ++ ',' :: rest)))))

end

/-- A character that is a digit or a sign is neither a blank nor a mark of JSON. -/
theorem numberStart_ne {c : Char} (start : c.isDigit = true ∨ c = '-') :
    isSpace c = false ∧ c ≠ '"' ∧ c ≠ '[' ∧ c ≠ ']' ∧ c ≠ '{' ∧ c ≠ '}' ∧ c ≠ 'n' ∧ c ≠ 't' ∧
      c ≠ 'f' := by
  rcases start with digit | rfl
  · refine ⟨?_, ?_, ?_, ?_, ?_, ?_, ?_, ?_, ?_⟩
    · cases blank : isSpace c with
      | false => rfl
      | true =>
          simp only [isSpace, Bool.or_eq_true, beq_iff_eq] at blank
          rcases blank with ((rfl | rfl) | rfl) | rfl <;> cases digit
    all_goals
      rintro rfl
      cases digit
  · decide

theorem NumberText.head {cs : List Char} (number : NumberText cs) :
    ∃ c rest, cs = c :: rest ∧ (c.isDigit = true ∨ c = '-') := by
  cases number with
  | unsigned number =>
      obtain ⟨c, rest, rfl, digit⟩ := number.head
      exact ⟨c, rest, rfl, .inl digit⟩
  | negative => exact ⟨'-', _, rfl, .inr rfl⟩

/-- A spelling starts with a character that neither is a blank nor ends anything. -/
theorem Spells.head {j : Json} {cs : List Char} (spelled : Spells j cs) :
    ∃ c rest, cs = c :: rest ∧ isSpace c = false ∧ c ≠ ']' ∧ c ≠ '}' := by
  cases spelled with
  | number number =>
      obtain ⟨c, rest, rfl, start⟩ := number.head
      obtain ⟨visible, _, _, bracket, _, brace, _⟩ := numberStart_ne start
      exact ⟨c, rest, rfl, visible, bracket, brace⟩
  | null => exact ⟨_, _, rfl, by decide⟩
  | affirmed => exact ⟨_, _, rfl, by decide⟩
  | denied => exact ⟨_, _, rfl, by decide⟩
  | text => exact ⟨_, _, rfl, by decide⟩
  | emptyArray => exact ⟨_, _, rfl, by decide⟩
  | array => exact ⟨_, _, rfl, by decide⟩
  | emptyObject => exact ⟨_, _, rfl, by decide⟩
  | object => exact ⟨_, _, rfl, by decide⟩

/-- Blanks and a mark that continues no number end a number before them. -/
theorem endsNumber_of_blanks {blanks : List Char} (blank : Blanks blanks) {c : Char}
    (mark : continuesNumber c = false) (rest : List Char) : EndsNumber (blanks ++ c :: rest) := by
  intro first head
  cases blanks with
  | nil =>
      cases head
      exact mark
  | cons space others =>
      cases head
      have spaced := blank first List.mem_cons_self
      simp only [isSpace, Bool.or_eq_true, beq_iff_eq] at spaced
      rcases spaced with ((rfl | rfl) | rfl) | rfl <;> decide

/-! ## Reading spellings -/

theorem takeValue?_blanks {blanks : List Char} (blank : Blanks blanks) {c : Char}
    (other : isSpace c = false) (steps : Nat) (rest : List Char) :
    takeValue? (steps + 1) (blanks ++ c :: rest) = takeValue? (steps + 1) (c :: rest) := by
  have bare : skipSpace (c :: rest) = c :: rest := skipSpace_append blanks_nil other _
  rw [takeValue?, takeValue?, skipSpace_append blank other, bare]

theorem takeValue?_number {c : Char} (start : c.isDigit = true ∨ c = '-') (steps : Nat)
    (rest : List Char) :
    takeValue? (steps + 1) (c :: rest) =
      (takeNumber? (c :: rest)).map fun (chars, after) => (.number chars, after) := by
  obtain ⟨visible, quote, bracket, _, brace, _, n, t, f⟩ := numberStart_ne start
  have bare : skipSpace (c :: rest) = c :: rest :=
    skipSpace_append blanks_nil visible _
  rw [takeValue?, bare]
  split <;> simp_all

theorem takeValue?_array (steps : Nat) {cs others : List Char} {first : Char}
    (skipped : skipSpace cs = first :: others) (inhabited : first ≠ ']') :
    takeValue? (steps + 1) ('[' :: cs) =
      (takeItems? steps cs).map fun (items, after) => (.array items, after) := by
  have bare : skipSpace ('[' :: cs) = '[' :: cs := rfl
  rw [takeValue?, bare]
  simp only [skipped]
  split
  · simp_all
  · rfl

theorem takeValue?_object (steps : Nat) {cs others : List Char} {first : Char}
    (skipped : skipSpace cs = first :: others) (inhabited : first ≠ '}') :
    takeValue? (steps + 1) ('{' :: cs) =
      (takeMembers? steps cs).map fun (members, after) => (.object members, after) := by
  have bare : skipSpace ('{' :: cs) = '{' :: cs := rfl
  rw [takeValue?, bare]
  simp only [skipped]
  split
  · simp_all
  · rfl

theorem SpellsItems.skipSpace {items : List Json} {cs : List Char} (spelled : SpellsItems items cs)
    (rest : List Char) :
    ∃ first others, Json.skipSpace (cs ++ rest) = first :: others ∧ first ≠ ']' := by
  cases spelled with
  | last before item =>
      obtain ⟨c, others, rfl, visible, open_item, _⟩ := item.head
      simp only [List.append_assoc, List.cons_append]
      exact ⟨c, _, skipSpace_append before visible _, open_item⟩
  | more before item =>
      obtain ⟨c, others, rfl, visible, open_item, _⟩ := item.head
      simp only [List.append_assoc, List.cons_append]
      exact ⟨c, _, skipSpace_append before visible _, open_item⟩

theorem SpellsMembers.skipSpace {members : List (Option String × Json)} {cs : List Char}
    (spelled : SpellsMembers members cs) (rest : List Char) :
    ∃ others, Json.skipSpace (cs ++ rest) = '"' :: others := by
  cases spelled with
  | last before =>
      simp only [quoted, List.append_assoc, List.cons_append]
      exact ⟨_, skipSpace_append before (by decide) _⟩
  | more before =>
      simp only [quoted, List.append_assoc, List.cons_append]
      exact ⟨_, skipSpace_append before (by decide) _⟩

mutual

/-- The reader takes a spelling off the front of a text and gives back its value. Every
level and every element uses up a character, so the length of the spelling bounds the
steps. -/
theorem takeValue?_of_spells : {j : Json} → {cs : List Char} → Spells j cs →
    (steps : Nat) → (before rest : List Char) → Blanks before → cs.length ≤ steps →
      EndsNumber rest → takeValue? steps (before ++ (cs ++ rest)) = some (j, rest)
  | j, cs, spelled, 0, _, _, _, enough, _ => by
      obtain ⟨c, others, rfl, _⟩ := spelled.head
      simp at enough
  | _, _, .null, steps + 1, before, rest, blank, _, _ => by
      rw [List.cons_append, takeValue?_blanks blank (by decide)]
      rfl
  | _, _, .affirmed, steps + 1, before, rest, blank, _, _ => by
      rw [List.cons_append, takeValue?_blanks blank (by decide)]
      rfl
  | _, _, .denied, steps + 1, before, rest, blank, _, _ => by
      rw [List.cons_append, takeValue?_blanks blank (by decide)]
      rfl
  | _, _, .number written, steps + 1, before, rest, blank, _, ends => by
      have taken := takeNumber?_append written ends
      obtain ⟨c, others, rfl, start⟩ := written.head
      rw [List.cons_append, takeValue?_blanks blank (numberStart_ne start).1,
        takeValue?_number start, ← List.cons_append, taken, Option.map_some]
  | _, _, .text text, steps + 1, before, rest, blank, _, _ => by
      have taken := takeQuoted?_quoted text rest
      rw [quoted, List.cons_append, List.cons_append, takeValue?_blanks blank (by decide),
        List.append_assoc, List.singleton_append, takeValue?]
      simp only [Json.skipSpace, List.dropWhile_cons, show isSpace '"' = false from rfl,
        Bool.false_eq_true, ↓reduceIte, taken, Option.map_some]
  | _, _, .emptyArray, steps + 1, before, rest, blank, _, _ => by
      rw [List.cons_append, takeValue?_blanks blank (by decide)]
      rfl
  | _, _, .array items, steps + 1, before, rest, blank, enough, _ => by
      obtain ⟨first, others, skipped, inhabited⟩ := items.skipSpace rest
      rw [List.cons_append, takeValue?_blanks blank (by decide),
        takeValue?_array steps skipped inhabited,
        takeItems?_of_spells items steps rest (by simpa using enough), Option.map_some]
  | _, _, .emptyObject, steps + 1, before, rest, blank, _, _ => by
      rw [List.cons_append, takeValue?_blanks blank (by decide)]
      rfl
  | _, _, .object members, steps + 1, before, rest, blank, enough, _ => by
      obtain ⟨others, skipped⟩ := members.skipSpace rest
      rw [List.cons_append, takeValue?_blanks blank (by decide),
        takeValue?_object steps skipped (by decide),
        takeMembers?_of_spells members steps rest (by simpa using enough), Option.map_some]

/-- The reader takes the elements of an array and its end. -/
theorem takeItems?_of_spells : {items : List Json} → {cs : List Char} → SpellsItems items cs →
    (steps : Nat) → (rest : List Char) → cs.length ≤ steps →
      takeItems? steps (cs ++ rest) = some (items, rest)
  | _, _, .last _ _ _, 0, _, enough => by simp at enough
  | _, _, .more _ _ _ _, 0, _, enough => by simp at enough
  | _, _, @SpellsItems.last _ _ _ after blank item after_blank, steps + 1, rest, enough => by
      simp only [List.length_append, List.length_singleton] at enough
      have taken := takeValue?_of_spells item steps _ (after ++ ']' :: rest) blank (by omega)
        (endsNumber_of_blanks after_blank (by decide) _)
      have skipped := skipSpace_append after_blank (c := ']') (by decide) rest
      simp only [List.append_assoc, List.singleton_append, takeItems?, taken, skipped]
  | _, _, @SpellsItems.more _ _ _ _ after others blank item after_blank items, steps + 1,
      rest, enough => by
      simp only [List.length_append, List.length_cons] at enough
      have taken := takeValue?_of_spells item steps _ (after ++ ',' :: (others ++ rest)) blank
        (by omega) (endsNumber_of_blanks after_blank (by decide) _)
      have skipped := skipSpace_append after_blank (c := ',') (by decide) (others ++ rest)
      have more := takeItems?_of_spells items steps rest (by omega)
      simp only [List.append_assoc, List.cons_append, takeItems?, taken, skipped, more,
        Option.map_some]

/-- The reader takes the members of an object and its end. -/
theorem takeMembers?_of_spells : {members : List (Option String × Json)} → {cs : List Char} →
    SpellsMembers members cs → (steps : Nat) → (rest : List Char) → cs.length ≤ steps →
      takeMembers? steps (cs ++ rest) = some (members, rest)
  | _, _, .last _ _ _ _, 0, _, enough => by simp [quoted] at enough
  | _, _, .more _ _ _ _ _, 0, _, enough => by simp [quoted] at enough
  | _, _, @SpellsMembers.last name _ _ gap cs after blank gap_blank value after_blank,
      steps + 1, rest, enough => by
      simp only [List.length_append, List.length_cons] at enough
      have opened := skipSpace_append blank (c := '"') (by decide)
        (name.toList.flatMap escaped ++ '"' :: ':' :: (gap ++ (cs ++ (after ++ '}' :: rest))))
      have named := takeQuoted?_quoted name (':' :: (gap ++ (cs ++ (after ++ '}' :: rest))))
      have colon : Json.skipSpace (':' :: (gap ++ (cs ++ (after ++ '}' :: rest)))) =
        ':' :: (gap ++ (cs ++ (after ++ '}' :: rest))) := rfl
      have taken := takeValue?_of_spells value steps gap (after ++ '}' :: rest) gap_blank
        (by omega) (endsNumber_of_blanks after_blank (by decide) _)
      have skipped := skipSpace_append after_blank (c := '}') (by decide) rest
      simp only [quoted, List.append_assoc, List.cons_append, List.nil_append, takeMembers?,
        opened, named, colon, taken, skipped]
  | _, _, @SpellsMembers.more name _ _ _ gap cs after others blank gap_blank value after_blank
      members, steps + 1, rest, enough => by
      simp only [List.length_append, List.length_cons] at enough
      have opened := skipSpace_append blank (c := '"') (by decide)
        (name.toList.flatMap escaped ++
          '"' :: ':' :: (gap ++ (cs ++ (after ++ ',' :: (others ++ rest)))))
      have named :=
        takeQuoted?_quoted name (':' :: (gap ++ (cs ++ (after ++ ',' :: (others ++ rest)))))
      have colon : Json.skipSpace (':' :: (gap ++ (cs ++ (after ++ ',' :: (others ++ rest))))) =
        ':' :: (gap ++ (cs ++ (after ++ ',' :: (others ++ rest)))) := rfl
      have taken := takeValue?_of_spells value steps gap (after ++ ',' :: (others ++ rest))
        gap_blank (by omega) (endsNumber_of_blanks after_blank (by decide) _)
      have skipped := skipSpace_append after_blank (c := ',') (by decide) (others ++ rest)
      have more := takeMembers?_of_spells members steps rest (by omega)
      simp only [quoted, List.append_assoc, List.cons_append, List.nil_append, takeMembers?,
        opened, named, colon, taken, skipped, more, Option.map_some]

end

/-- A text that spells a value is read as that value. -/
theorem readChars?_of_spells {j : Json} {cs : List Char} (spelled : Spells j cs) :
    readChars? cs = some j := by
  have taken := takeValue?_of_spells spelled (2 * cs.length + 2) [] [] blanks_nil (by omega)
    (by simp [EndsNumber])
  simp only [List.nil_append, List.append_nil] at taken
  rw [readChars?, taken]
  rfl

end Json

end WordMachine
