import WordMachine.Proofs.Json.Spelling

/-! # Torn JSON is refused

The reader decides by what it has taken, so characters behind it change nothing
(`takeValue?_append`). Two things could go on in them: a number, unless another character
follows it already, and the escape of a surrogate, unless it is torn, and a torn escape is
no part of a string. Hence an object has no closing brace but its last character, and the
text of an object is refused if anything is cut off its end (`readChars?_of_torn`).

Every step is said of more characters and of more steps at once, because the reader allows
itself more steps for a longer text.
-/

namespace WordMachine

namespace Json

/-- The first character that is no white space stays the first. -/
theorem skipSpace_append_of_cons {cs rest : List Char} {c : Char}
    (skipped : skipSpace cs = c :: rest) (more : List Char) : skipSpace (cs ++ more) = c :: (rest ++ more) := by
  unfold skipSpace at skipped ⊢
  rw [List.dropWhile_append, skipped]
  rfl

/-! ## Numbers -/

/-- More characters change nothing that is taken if some were left before. -/
def Settled (take : List Char → Option (List Char × List Char)) : Prop :=
  ∀ {cs taken rest : List Char}, take cs = some (taken, rest) → rest ≠ [] →
    ∀ more, take (cs ++ more) = some (taken, rest ++ more)

/-- Digits that something else follows are all digits there are. -/
theorem settled_takeDigits? : Settled takeDigits? := by
  intro cs taken rest found left more
  unfold takeDigits? at found ⊢
  dsimp only at found ⊢
  split at found
  · cases found
  · next nonempty =>
      obtain ⟨rfl, rfl⟩ := Prod.mk.inj (Option.some.inj found)
      have same : (cs ++ more).takeWhile Char.isDigit = cs.takeWhile Char.isDigit := by
        rw [List.takeWhile_append, if_neg]
        intro all
        apply left
        have split := congrArg List.length (@List.takeWhile_append_dropWhile _ Char.isDigit cs)
        rw [List.length_append, all] at split
        exact List.eq_nil_of_length_eq_zero (by omega)
      have others : (cs ++ more).dropWhile Char.isDigit = cs.dropWhile Char.isDigit ++ more := by
        rw [List.dropWhile_append, if_neg (by simpa using left)]
      rw [same, others, if_neg nonempty]

/-- A whole part without a zero in front is its digits. -/
theorem takeWhole?_of_ne {c : Char} (other : c ≠ '0') (cs : List Char) :
    takeWhole? (c :: cs) = takeDigits? (c :: cs) := by
  unfold takeWhole?
  split
  · next same => exact absurd (List.cons.inj same).1 other
  · rfl

/-- A whole part that something follows goes on no further. -/
theorem settled_takeWhole? : Settled takeWhole? := by
  intro cs taken rest found left more
  cases cs with
  | nil => cases found
  | cons c cs =>
      by_cases zero : c = '0'
      · subst zero
        cases found
        rfl
      · rw [takeWhole?_of_ne zero] at found
        rw [List.cons_append, takeWhole?_of_ne zero]
        exact settled_takeDigits? found left more

/-- Without a point there is no fraction. -/
theorem takeFraction?_of_ne {c : Char} (other : c ≠ '.') (cs : List Char) :
    takeFraction? (c :: cs) = some ([], c :: cs) := by
  unfold takeFraction?
  split
  · next same => exact absurd (List.cons.inj same).1 other
  · rfl

/-- A fraction that something follows goes on no further. -/
theorem settled_takeFraction? : Settled takeFraction? := by
  intro cs taken rest found left more
  cases cs with
  | nil =>
      cases found
      exact absurd rfl left
  | cons c cs =>
      by_cases point : c = '.'
      · subst point
        obtain ⟨⟨digits, after⟩, digits_found, same⟩ := Option.map_eq_some_iff.mp found
        cases same
        rw [List.cons_append, takeFraction?, settled_takeDigits? digits_found left more]
        rfl
      · rw [takeFraction?_of_ne point] at found
        cases found
        exact takeFraction?_of_ne point (cs ++ more)

/-- The sign is told by the first character. -/
theorem takeSign_append {cs : List Char} (nonempty : cs ≠ []) (more : List Char) :
    takeSign (cs ++ more) = ((takeSign cs).1, (takeSign cs).2 ++ more) := by
  obtain ⟨c, cs, rfl⟩ := List.exists_cons_of_ne_nil nonempty
  rw [List.cons_append]
  unfold takeSign
  split <;> split <;> simp_all

/-- An exponent that something follows goes on no further. -/
theorem settled_takeExponent? : Settled takeExponent? := by
  intro cs taken rest found left more
  cases cs with
  | nil =>
      cases found
      exact absurd rfl left
  | cons c cs =>
      rw [List.cons_append]
      by_cases marked : c = 'e' ∨ c = 'E'
      · rw [takeExponent?, if_pos marked] at found ⊢
        have nonempty : cs ≠ [] := by
          rintro rfl
          cases found
        rw [takeSign_append nonempty]
        generalize takeSign cs = signed at found ⊢
        obtain ⟨⟨digits, after⟩, digits_found, same⟩ := Option.map_eq_some_iff.mp found
        cases same
        dsimp only
        rw [settled_takeDigits? digits_found left more]
        rfl
      · rw [takeExponent?, if_neg marked] at found ⊢
        cases found
        rfl

/-- The parts of a number settle one after the other. -/
theorem settled_takeUnsigned? : Settled takeUnsigned? := by
  intro cs taken rest found left more
  simp only [takeUnsigned?, Option.bind_eq_bind, Option.bind_eq_some_iff, Option.pure_def,
    Prod.exists] at found
  obtain ⟨whole, second, whole_found, fraction, third, fraction_found, exponent, fourth,
    exponent_found, same⟩ := found
  cases same
  have third_left : third ≠ [] := by
    rintro rfl
    cases exponent_found
    exact left rfl
  have second_left : second ≠ [] := by
    rintro rfl
    cases fraction_found
    exact third_left rfl
  simp only [takeUnsigned?, settled_takeWhole? whole_found second_left more,
    settled_takeFraction? fraction_found third_left more,
    settled_takeExponent? exponent_found left more, Option.bind_eq_bind, Option.bind_some,
    Option.pure_def]

/-- A number without a minus is read without a sign. -/
theorem takeNumber?_of_ne {c : Char} (other : c ≠ '-') (cs : List Char) :
    takeNumber? (c :: cs) = takeUnsigned? (c :: cs) := by
  unfold takeNumber?
  split
  · next same => exact absurd (List.cons.inj same).1 other
  · rfl

/-- A number that something follows is the same number whatever comes behind. -/
theorem settled_takeNumber? : Settled takeNumber? := by
  intro cs taken rest found left more
  cases cs with
  | nil => cases found
  | cons c cs =>
      by_cases minus : c = '-'
      · subst minus
        obtain ⟨⟨chars, after⟩, chars_found, same⟩ := Option.map_eq_some_iff.mp found
        cases same
        rw [List.cons_append, takeNumber?, settled_takeUnsigned? chars_found left more]
        rfl
      · rw [takeNumber?_of_ne minus] at found
        rw [List.cons_append, takeNumber?_of_ne minus]
        exact settled_takeUnsigned? found left more

/-! ## Strings -/

/-- A text that may be the start of an escape of four digits, and no more than that. -/
inductive TornEscape : List Char → Prop where
  | nothing : TornEscape []
  | backslash : TornEscape ['\\']
  | digits {digits : List Char} : digits.length < 4 → TornEscape ('\\' :: 'u' :: digits)

/-- A torn escape is no rest of a string. -/
theorem takeString?_of_tornEscape {cs : List Char} (torn : TornEscape cs) (steps : Nat)
    (read : Option (List Char)) : takeString? steps read cs = none := by
  cases steps with
  | zero => rfl
  | succ steps =>
      cases torn with
      | nothing => rfl
      | backslash => rfl
      | @digits digits few =>
          match digits, few with
          | [], _ => rfl
          | [_], _ => rfl
          | [_, _], _ => rfl
          | [_, _, _], _ => rfl
          | _ :: _ :: _ :: _ :: _, few => exact absurd few (by simp only [List.length_cons]; omega)

/-- A text begins with an escape of four digits. -/
def StartsEscape (cs : List Char) : Prop :=
  ∃ a b c d after, cs = '\\' :: 'u' :: a :: b :: c :: d :: after

/-- The start of a text that begins with an escape is torn or has the whole escape. -/
theorem tornEscape_of_append {cs more : List Char} (starts : StartsEscape (cs ++ more)) :
    TornEscape cs ∨ StartsEscape cs := by
  obtain ⟨a, b, c, d, after, same⟩ := starts
  rcases cs with _ | ⟨first, _ | ⟨second, digits⟩⟩
  · exact .inl .nothing
  · simp only [List.cons_append, List.cons.injEq] at same
    rw [same.1]
    exact .inl .backslash
  · simp only [List.cons_append, List.cons.injEq] at same
    obtain ⟨rfl, rfl, same⟩ := same
    by_cases few : digits.length < 4
    · exact .inl (.digits few)
    · match digits, few with
      | a :: b :: c :: d :: after, _ => exact .inr ⟨a, b, c, d, after, rfl⟩
      | [], few | [_], few | [_, _], few | [_, _, _], few => exact absurd (by simp) few

/-- A code unit that no escape follows stands for itself. -/
theorem takeUnit_of_not_startsEscape {rest : List Char} (other : ¬StartsEscape rest) (n : Nat) :
    takeUnit n rest = ((takeUnit n []).1, rest) := by
  unfold takeUnit
  split
  · split
    · exact absurd ⟨_, _, _, _, _, rfl⟩ other
    · rfl
  · split <;> rfl

/-- Whether two code units are a pair is told by the escape that follows the first. -/
theorem takeUnit_append_of_startsEscape {rest : List Char} (starts : StartsEscape rest) (n : Nat)
    (more : List Char) :
    takeUnit n (rest ++ more) = ((takeUnit n rest).1, (takeUnit n rest).2 ++ more) := by
  obtain ⟨a, b, c, d, after, rfl⟩ := starts
  simp only [takeUnit, List.cons_append]
  split
  · split
    · split <;> rfl
    · rfl
  · split <;> rfl

/-- What an escape puts into a string is decided unless a torn escape follows. -/
theorem takeUnit_append {n : Nat} {rest after : List Char} {unit : Unit16}
    (found : takeUnit n rest = (unit, after)) (whole : ¬TornEscape after) (more : List Char) :
    takeUnit n (rest ++ more) = (unit, after ++ more) := by
  by_cases starts : StartsEscape rest
  · rw [takeUnit_append_of_startsEscape starts, found]
  · rw [takeUnit_of_not_startsEscape starts] at found
    cases found
    apply takeUnit_of_not_startsEscape
    intro longer
    exact (tornEscape_of_append longer).elim whole starts

/-- An escape of two characters adds the one that it stands for. -/
theorem takeString?_escape {c x : Char} (stands : escape? c = some x) (steps : Nat)
    (read : Option (List Char)) (rest : List Char) :
    takeString? (steps + 1) read ('\\' :: c :: rest) =
      takeString? steps (read.map (x :: ·)) rest := by
  have other : c ≠ 'u' := by
    rintro rfl
    cases stands
  simp [takeString?, other, stands]

/-- A plain character adds itself. -/
theorem takeString?_plain {c : Char} (quote : c ≠ '"') (plain : ¬(c = '\\' ∨ c.toNat < 0x20))
    (steps : Nat) (read : Option (List Char)) (rest : List Char) :
    takeString? (steps + 1) read (c :: rest) = takeString? steps (read.map (c :: ·)) rest := by
  rw [takeString?.eq_def]
  split <;> simp_all

/-- A string that was taken is taken again when more characters follow. -/
theorem takeString?_append {steps : Nat} {read : Option (List Char)} {cs rest : List Char}
    {text : Option String} (taken : takeString? steps read cs = some (text, rest)) (extra : Nat)
    (more : List Char) :
    takeString? (steps + extra) read (cs ++ more) = some (text, rest ++ more) := by
  have whole : ∀ {steps read cs}, takeString? steps read cs = some (text, rest) →
      ¬TornEscape cs := by
    intro steps read cs taken torn
    rw [takeString?_of_tornEscape torn] at taken
    cases taken
  fun_induction takeString? steps read cs with
  | case1 | case2 | case4 | case7 | case9 => cases taken
  | case3 =>
      cases taken
      rw [Nat.succ_add]
      rfl
  | case5 steps read a b c d rest n quad x after unit ih =>
      rw [Nat.succ_add]
      simp only [List.cons_append, takeString?, quad, takeUnit_append unit (whole taken) more]
      exact ih taken
  | case6 steps read a b c d rest n quad after unit ih =>
      rw [Nat.succ_add]
      simp only [List.cons_append, takeString?, quad, takeUnit_append unit (whole taken) more]
      exact ih taken
  | case8 steps read c rest _ x stands ih =>
      rw [Nat.succ_add, List.cons_append, List.cons_append, takeString?_escape stands]
      exact ih taken
  | case10 steps read c rest quote _ _ plain ih =>
      rw [Nat.succ_add, List.cons_append, takeString?_plain quote plain]
      exact ih taken

/-- A string ends at its quote whatever follows. -/
theorem takeQuoted?_append {cs rest : List Char} {text : Option String}
    (taken : takeQuoted? cs = some (text, rest)) (more : List Char) :
    takeQuoted? (cs ++ more) = some (text, rest ++ more) := by
  have longer := takeString?_append taken more.length more
  rwa [takeQuoted?, List.length_append, Nat.add_right_comm]

/-! ## Values -/

/-- A literal is read alike whatever follows. -/
theorem takeLiteral?_append {literal cs rest : List Char} {value j : Json}
    (taken : takeLiteral? literal value cs = some (j, rest)) (more : List Char) :
    takeLiteral? literal value (cs ++ more) = some (j, rest ++ more) := by
  unfold takeLiteral? at taken ⊢
  split at taken
  · next starts =>
      cases taken
      rw [List.isPrefixOf_iff_prefix] at starts
      rw [if_pos (List.isPrefixOf_iff_prefix.mpr (starts.trans (List.prefix_append cs more))),
        List.drop_append_of_le_length starts.length_le]
  · cases taken

/-- A value starts with a character that is no white space. -/
theorem exists_skipSpace_of_takeValue? {steps : Nat} {cs rest : List Char} {j : Json}
    (taken : takeValue? steps cs = some (j, rest)) : ∃ c others, skipSpace cs = c :: others := by
  apply List.exists_cons_of_ne_nil
  intro blank
  cases steps with
  | zero => cases taken
  | succ steps =>
      rw [takeValue?, blank] at taken
      cases taken

/-- So do the items of an array. -/
theorem exists_skipSpace_of_takeItems? {steps : Nat} {cs rest : List Char} {items : List Json}
    (taken : takeItems? steps cs = some (items, rest)) :
    ∃ c others, skipSpace cs = c :: others := by
  cases steps with
  | zero => cases taken
  | succ steps =>
      rw [takeItems?] at taken
      split at taken
      · cases taken
      · next value => exact exists_skipSpace_of_takeValue? value

/-- Members are taken as a quoted name, a colon and a value, and behind them a closing brace
or a comma and further members. -/
theorem takeMembers?_cases {steps : Nat} {cs rest : List Char}
    {members : List (Option String × Json)}
    (taken : takeMembers? (steps + 1) cs = some (members, rest)) :
    ∃ quoted name unread assigned value behind,
      skipSpace cs = '"' :: quoted ∧ takeQuoted? quoted = some (name, unread) ∧
      skipSpace unread = ':' :: assigned ∧ takeValue? steps assigned = some (value, behind) ∧
      (skipSpace behind = '}' :: rest ∧ members = [(name, value)] ∨
        ∃ further others, skipSpace behind = ',' :: further ∧
          takeMembers? steps further = some (others, rest) ∧
          members = (name, value) :: others) := by
  rw [takeMembers?] at taken
  split at taken
  · next quoted opened =>
      split at taken
      · cases taken
      · next name unread named =>
          split at taken
          · next assigned colon =>
              split at taken
              · cases taken
              · next value behind found =>
                  refine ⟨quoted, name, unread, assigned, value, behind, opened, named, colon,
                    found, ?_⟩
                  split at taken
                  · next closed =>
                      cases taken
                      exact .inl ⟨closed, rfl⟩
                  · next further comma =>
                      obtain ⟨⟨others, last⟩, others_found, same⟩ :=
                        Option.map_eq_some_iff.mp taken
                      cases same
                      exact .inr ⟨further, others, comma, others_found, rfl⟩
                  · cases taken
          · cases taken
  · cases taken

/-- Members start with the quote of a key. -/
theorem exists_skipSpace_of_takeMembers? {steps : Nat} {cs rest : List Char}
    {members : List (Option String × Json)} (taken : takeMembers? steps cs = some (members, rest)) :
    ∃ others, skipSpace cs = '"' :: others := by
  cases steps with
  | zero => cases taken
  | succ steps =>
      obtain ⟨quoted, _, _, _, _, _, opened, _⟩ := takeMembers?_cases taken
      exact ⟨quoted, opened⟩

mutual

/-- A value that was taken is taken again when more characters follow; behind a number, at
least one has to have followed before. -/
theorem takeValue?_append : (steps : Nat) → {cs rest : List Char} → {j : Json} →
    takeValue? steps cs = some (j, rest) → (∀ chars, j = .number chars → rest ≠ []) →
      (extra : Nat) → (more : List Char) →
        takeValue? (steps + extra) (cs ++ more) = some (j, rest ++ more)
  | 0, _, _, _, taken, _, _, _ => nomatch taken
  | steps + 1, cs, rest, j, taken, ended, extra, more => by
      rw [Nat.add_right_comm]
      rw [takeValue?] at taken ⊢
      split at taken
      · next skipped =>
          obtain ⟨⟨text, after⟩, quoted, same⟩ := Option.map_eq_some_iff.mp taken
          cases same
          rw [skipSpace_append_of_cons skipped]
          simp only [takeQuoted?_append quoted more, Option.map_some]
      · next inner skipped =>
          rw [skipSpace_append_of_cons skipped]
          split at taken
          · next closed =>
              cases taken
              simp only [skipSpace_append_of_cons closed more]
          · next other =>
              obtain ⟨⟨items, after⟩, found, same⟩ := Option.map_eq_some_iff.mp taken
              cases same
              obtain ⟨first, others, inside⟩ := exists_skipSpace_of_takeItems? found
              have later := takeItems?_append steps found extra more
              simp only [skipSpace_append_of_cons inside more]
              split
              · simp_all
              · rw [later, Option.map_some]
      · next inner skipped =>
          rw [skipSpace_append_of_cons skipped]
          split at taken
          · next closed =>
              cases taken
              simp only [skipSpace_append_of_cons closed more]
          · next other =>
              obtain ⟨⟨members, after⟩, found, same⟩ := Option.map_eq_some_iff.mp taken
              cases same
              obtain ⟨others, inside⟩ := exists_skipSpace_of_takeMembers? found
              have later := takeMembers?_append steps found extra more
              simp only [skipSpace_append_of_cons inside more, later, Option.map_some]
              rfl
      · next skipped =>
          rw [skipSpace_append_of_cons skipped]
          exact takeLiteral?_append taken more
      · next skipped =>
          rw [skipSpace_append_of_cons skipped]
          exact takeLiteral?_append taken more
      · next skipped =>
          rw [skipSpace_append_of_cons skipped]
          exact takeLiteral?_append taken more
      · next quote bracket brace null affirmed denied =>
          obtain ⟨⟨chars, after⟩, found, same⟩ := Option.map_eq_some_iff.mp taken
          cases same
          have later := settled_takeNumber? found (ended chars rfl) more
          have nonempty : skipSpace cs ≠ [] := fun blank => by
            rw [blank] at found
            cases found
          obtain ⟨c, others, skipped⟩ := List.exists_cons_of_ne_nil nonempty
          rw [skipSpace_append_of_cons skipped]
          rw [skipped, List.cons_append] at later
          split <;> simp_all

/-- Elements that were taken are taken again when more characters follow. -/
theorem takeItems?_append : (steps : Nat) → {cs rest : List Char} → {items : List Json} →
    takeItems? steps cs = some (items, rest) → (extra : Nat) → (more : List Char) →
      takeItems? (steps + extra) (cs ++ more) = some (items, rest ++ more)
  | 0, _, _, _, taken, _, _ => nomatch taken
  | steps + 1, cs, rest, items, taken, extra, more => by
      rw [Nat.add_right_comm]
      rw [takeItems?] at taken ⊢
      split at taken
      · cases taken
      · next item after value =>
          have left : after ≠ [] := fun none_left => by
            rw [none_left] at taken
            cases taken
          rw [takeValue?_append steps value (fun _ _ => left) extra more]
          dsimp only
          split at taken
          · next skipped =>
              cases taken
              simp only [skipSpace_append_of_cons skipped more]
          · next skipped =>
              obtain ⟨⟨others, end_⟩, found, same⟩ := Option.map_eq_some_iff.mp taken
              cases same
              simp only [skipSpace_append_of_cons skipped more,
                takeItems?_append steps found extra more, Option.map_some]
          · cases taken

/-- Members that were taken are taken again when more characters follow. -/
theorem takeMembers?_append : (steps : Nat) → {cs rest : List Char} →
    {members : List (Option String × Json)} → takeMembers? steps cs = some (members, rest) →
      (extra : Nat) → (more : List Char) →
        takeMembers? (steps + extra) (cs ++ more) = some (members, rest ++ more)
  | 0, _, _, _, taken, _, _ => nomatch taken
  | steps + 1, cs, rest, members, taken, extra, more => by
      obtain ⟨quoted, name, unread, assigned, value, behind, opened, named, colon, found, ending⟩ :=
        takeMembers?_cases taken
      have left : behind ≠ [] := by
        rintro rfl
        rcases ending with ⟨closed, _⟩ | ⟨_, _, comma, _⟩
        · cases closed
        · cases comma
      have found_too := takeValue?_append steps found (fun _ _ => left) extra more
      rw [Nat.add_right_comm]
      simp only [takeMembers?, skipSpace_append_of_cons opened more, takeQuoted?_append named more,
        skipSpace_append_of_cons colon more, found_too]
      rcases ending with ⟨closed, rfl⟩ | ⟨further, others, comma, others_found, rfl⟩
      · simp only [skipSpace_append_of_cons closed more]
      · simp only [skipSpace_append_of_cons comma more,
          takeMembers?_append steps others_found extra more, Option.map_some]

end

/-! ## Torn texts -/

/-- A value that starts with a brace is an object. -/
theorem exists_object_of_takeValue? {steps : Nat} {cs rest : List Char} {j : Json}
    (taken : takeValue? steps ('{' :: cs) = some (j, rest)) : ∃ members, j = .object members := by
  have bare : skipSpace ('{' :: cs) = '{' :: cs := rfl
  cases steps with
  | zero => cases taken
  | succ steps =>
      simp only [takeValue?, bare] at taken
      split at taken
      · cases taken
        exact ⟨[], rfl⟩
      · obtain ⟨⟨members, after⟩, _, same⟩ := Option.map_eq_some_iff.mp taken
        cases same
        exact ⟨members, rfl⟩

/-- An object starts with a brace. -/
theorem Spells.brace {members : List (Option String × Json)} {cs : List Char}
    (spelled : Spells (.object members) cs) : ∃ others, cs = '{' :: others := by
  cases spelled with
  | emptyObject => exact ⟨_, rfl⟩
  | object => exact ⟨_, rfl⟩

/-- The text of an object is refused if anything is cut off its end. -/
theorem readChars?_of_torn {members : List (Option String × Json)} {cs part : List Char}
    (spelled : Spells (.object members) cs) (cut : part <+: cs) (strict : part ≠ cs) :
    readChars? part = none := by
  obtain ⟨missing, rfl⟩ := cut
  have whole := takeValue?_of_spells spelled (2 * part.length + 2 + 2 * missing.length) [] []
    blanks_nil (by rw [List.length_append]; omega) (by simp [EndsNumber])
  rw [List.nil_append, List.append_nil] at whole
  unfold readChars?
  cases taken : takeValue? (2 * part.length + 2) part with
  | none => rfl
  | some found =>
      obtain ⟨j, rest⟩ := found
      have object : ∃ inner, j = .object inner := by
        obtain ⟨others, starts⟩ := spelled.brace
        cases part with
        | nil => cases taken
        | cons c part =>
            obtain ⟨rfl, _⟩ := List.cons.inj starts
            exact exists_object_of_takeValue? taken
      obtain ⟨inner, rfl⟩ := object
      have no_number : ∀ chars, Json.object inner = .number chars → rest ≠ [] := by
        intro chars same
        cases same
      have again := takeValue?_append _ taken no_number (2 * missing.length) missing
      rw [whole] at again
      have left := congrArg Prod.snd (Option.some.inj again)
      have none_missing : missing = [] := (List.append_eq_nil_iff.mp left.symm).2
      rw [none_missing, List.append_nil] at strict
      exact absurd rfl strict

end Json

end WordMachine
