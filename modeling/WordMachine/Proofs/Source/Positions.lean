import Mathlib.Data.List.Basic
import WordMachine.Proofs.Source.Scan

/-! # The positions of source tokens

A text is a list of lines, and a run of a line is a stretch without blanks that cannot be made
longer. Runs that share a character are the same (`Text.IsRun.eq_of_shared`). A scan finds the
runs of all lines, each at its line and column, and leaves no character out that is not blank
(`Source.scan_exact`).

A token that a scan has found stands in the text whatever follows; only the token in progress
waits for the blank or the end of line that closes it (`Source.Scanner.Reads`).
-/

namespace WordMachine

namespace Text

/-- The lines of a text; a line feed ends a line. -/
def lines (text : String) : List (List Char) :=
  text.toList.splitOn '\n'

/-- A run between the other characters of its line: it has no blank, and a blank or an end of the
line is on either side. -/
structure IsRun (before run after : List Char) : Prop where
  nonempty : run ≠ []
  solid : ∀ c ∈ run, isBlank c = false
  opened : ∀ c ∈ before.getLast?, isBlank c = true
  closed : ∀ c ∈ after.head?, isBlank c = true

namespace IsRun

variable {before run after before' run' after' : List Char}

theorem isBlank_at (isRun : IsRun before run after) {index : Nat}
    (from_start : before.length ≤ index) (to_end : index < before.length + run.length) :
    ((before ++ run ++ after)[index]?).map isBlank = some false := by
  have inside : index - before.length < run.length := by omega
  rw [List.append_assoc, List.getElem?_append_right from_start,
    List.getElem?_append_left inside, List.getElem?_eq_getElem inside, Option.map_some,
    isRun.solid _ (List.getElem_mem inside)]

theorem isBlank_before (isRun : IsRun before run after) (later : 0 < before.length) :
    ((before ++ run ++ after)[before.length - 1]?).map isBlank = some true := by
  have inside : before.length - 1 < before.length := by omega
  have last : before.getLast? = some before[before.length - 1] := by
    rw [List.getLast?_eq_getElem?, List.getElem?_eq_getElem inside]
  rw [List.append_assoc, List.getElem?_append_left inside, List.getElem?_eq_getElem inside,
    Option.map_some, isRun.opened _ last]

theorem isBlank_after (isRun : IsRun before run after)
    (earlier : before.length + run.length < (before ++ run ++ after).length) :
    ((before ++ run ++ after)[before.length + run.length]?).map isBlank = some true := by
  have at_end : (before ++ run).length ≤ before.length + run.length :=
    Nat.le_of_eq List.length_append
  rw [List.getElem?_append_right at_end, List.length_append, Nat.sub_self]
  cases after with
  | nil => simp at earlier
  | cons c rest => exact congrArg some (isRun.closed c rfl)

/-- Of two runs with a character in common, neither starts first: the blank before the later one
would be inside the other. -/
theorem start_le (first : IsRun before run after) (second : IsRun before' run' after')
    (same : before ++ run ++ after = before' ++ run' ++ after') {index : Nat}
    (inside : index < before.length + run.length) (from_start : before'.length ≤ index) :
    before'.length ≤ before.length := by
  by_contra later
  have blank := second.isBlank_before (by omega)
  rw [← same, first.isBlank_at (by omega) (by omega)] at blank
  cases blank

/-- Nor does one of them end first. -/
theorem end_le (first : IsRun before run after) (second : IsRun before' run' after')
    (same : before ++ run ++ after = before' ++ run' ++ after') {index : Nat}
    (from_start : before.length ≤ index) (inside : index < before'.length + run'.length) :
    before.length + run.length ≤ before'.length + run'.length := by
  by_contra longer
  have within : before.length + run.length ≤ (before ++ run ++ after).length := by simp
  have blank := second.isBlank_after (by rw [← same]; omega)
  rw [← same, first.isBlank_at (by omega) (by omega)] at blank
  cases blank

/-- **Runs of a line with a character in common are the same.** -/
theorem eq_of_shared (first : IsRun before run after) (second : IsRun before' run' after')
    (same : before ++ run ++ after = before' ++ run' ++ after') {index : Nat}
    (start : before.length ≤ index) (stop : index < before.length + run.length)
    (start' : before'.length ≤ index) (stop' : index < before'.length + run'.length) :
    before = before' ∧ run = run' := by
  have starts : before.length = before'.length :=
    Nat.le_antisymm (second.start_le first same.symm stop' start)
      (first.start_le second same stop start')
  have ends := Nat.le_antisymm (first.end_le second same start stop')
    (second.end_le first same.symm start' stop)
  rw [List.append_assoc, List.append_assoc] at same
  obtain ⟨same_before, same_rest⟩ := List.append_inj same starts
  exact ⟨same_before, (List.append_inj same_rest (by omega)).1⟩

end IsRun

end Text

namespace SourceToken

/-- The token is a run of a line, and its line and column are counted from one. -/
def StandsIn (lines : List (List Char)) (token : SourceToken) : Prop :=
  ∃ above before after below,
    lines = above ++ (before ++ token.text.toList ++ after) :: below ∧
      token.line = above.length + 1 ∧ token.column = before.length + 1 ∧
      Text.IsRun before token.text.toList after

/-- The token has a character at a position. -/
def Covers (token : SourceToken) (line column : Nat) : Prop :=
  token.line = line ∧ token.column ≤ column ∧ column < token.column + token.text.toList.length

/-- Tokens of a text that have a character in common are the same. -/
theorem StandsIn.eq_of_covers {lines : List (List Char)} {first second : SourceToken}
    (stands : first.StandsIn lines) (stands' : second.StandsIn lines) {line column : Nat}
    (covers : first.Covers line column) (covers' : second.Covers line column) :
    first = second := by
  obtain ⟨above, before, after, below, rfl, line_eq, column_eq, run⟩ := stands
  obtain ⟨above', before', after', below', same, line_eq', column_eq', run'⟩ := stands'
  obtain ⟨on_line, start, stop⟩ := covers
  obtain ⟨on_line', start', stop'⟩ := covers'
  obtain ⟨-, same_rest⟩ := List.append_inj same (by omega)
  have same_line := (List.cons.inj same_rest).1
  obtain ⟨same_before, same_run⟩ := run.eq_of_shared run' same_line
    (show before.length ≤ column - 1 by omega) (by omega) (by omega) (by omega)
  have same_column : first.column = second.column := by rw [column_eq, column_eq', same_before]
  cases first
  cases second
  cases String.toList_inj.mp same_run
  cases on_line.trans on_line'.symm
  cases same_column
  rfl

end SourceToken

namespace Source

/-- The character of a line and a column, both counted from zero. -/
def characterAt? (lines : List (List Char)) (line column : Nat) : Option Char :=
  lines[line]?.bind fun characters => characters[column]?

/-- A text that gets longer has its former characters and the new one. -/
theorem characterAt?_concat {above : List (List Char)} {last : List Char} {c d : Char}
    {line column : Nat} (found : characterAt? (above ++ [last ++ [c]]) line column = some d) :
    characterAt? (above ++ [last]) line column = some d ∨
      line = above.length ∧ column = last.length ∧ d = c := by
  unfold characterAt? at found ⊢
  rw [List.getElem?_append] at found ⊢
  split at found
  · next earlier => exact .inl (by rw [if_pos earlier]; exact found)
  · next here =>
      rw [if_neg here]
      obtain ⟨characters, at_line, at_column⟩ := Option.bind_eq_some_iff.mp found
      rw [List.getElem?_singleton, Option.ite_none_right_eq_some] at at_line
      obtain ⟨below, at_line⟩ := at_line
      cases at_line
      rw [List.getElem?_append] at at_column
      split at at_column
      · rw [List.getElem?_singleton, if_pos below]
        exact .inl at_column
      · rw [List.getElem?_singleton, Option.ite_none_right_eq_some] at at_column
        exact .inr ⟨by omega, by omega, (Option.some.inj at_column.2).symm⟩

/-- A new line has no characters. -/
theorem characterAt?_newLine {lines : List (List Char)} {line column : Nat} {d : Char}
    (found : characterAt? (lines ++ [[]]) line column = some d) :
    characterAt? lines line column = some d := by
  unfold characterAt? at found ⊢
  obtain ⟨characters, at_line, at_column⟩ := Option.bind_eq_some_iff.mp found
  rw [List.getElem?_append] at at_line
  split at at_line
  · rw [at_line]
    exact at_column
  · rw [List.getElem?_singleton, Option.ite_none_right_eq_some] at at_line
    cases at_line.2
    cases at_column

namespace Scanner

/-- The token in progress ends the last line and starts after a blank; without one the line ends
in a blank, unless it is empty. -/
def InProgress (s : Scanner) (last : List Char) : Prop :=
  match s.current with
  | none => ∀ c ∈ last.getLast?, Text.isBlank c = true
  | some (column, run) =>
    ∃ before, last = before ++ run.reverse ∧ column = before.length + 1 ∧
      Text.IsRun before run.reverse []

/-- A character that is not blank starts a token or joins the one in progress. -/
theorem step_eq_of_solid (s : Scanner) {c : Char} (solid : Text.isBlank c = false) :
    s.step c =
      { s with
        column := s.column + 1
        current := some (s.current.elim (s.column, [c]) fun p => (p.1, c :: p.2)) } := by
  have other : c ≠ '\n' := by
    rintro rfl
    cases solid
  have notBlank : ¬Text.isBlank c = true := by
    rw [solid]
    exact Bool.false_ne_true
  obtain ⟨line, column, current, found⟩ := s
  rw [step, if_neg other, if_neg notBlank]
  cases current with
  | none => rfl
  | some pending => rfl

/-- A token in progress that gets longer keeps its characters. -/
theorem exists_longer {s : Scanner} {c : Char} (solid : Text.isBlank c = false)
    {token : SourceToken} (member : token ∈ s.close) :
    ∃ longer ∈ (s.step c).close,
      ∀ line column, token.Covers line column → longer.Covers line column := by
  rw [step_eq_of_solid s solid]
  obtain ⟨line, column, current, found⟩ := s
  cases current with
  | none => exact ⟨token, List.mem_cons_of_mem _ member, fun _ _ covers => covers⟩
  | some pending =>
      rcases List.mem_cons.mp member with rfl | member
      · refine ⟨_, List.mem_cons_self, ?_⟩
        rintro line' column' ⟨on_line, start, stop⟩
        refine ⟨on_line, start, ?_⟩
        simp only [String.toList_ofList, List.length_reverse, List.length_cons] at stop ⊢
        exact Nat.lt_succ_of_lt stop
      · exact ⟨token, List.mem_cons_of_mem _ member, fun _ _ covers => covers⟩

/-- A character that is not blank is in progress, at the end of a token that starts in the last
line. -/
theorem InProgress.step_solid {s : Scanner} {last : List Char} (in_progress : s.InProgress last)
    (column_eq : s.column = last.length + 1) {c : Char} (solid : Text.isBlank c = false) :
    (s.step c).InProgress (last ++ [c]) := by
  rw [step_eq_of_solid s solid]
  obtain ⟨line, column, current, found⟩ := s
  cases current with
  | none => exact ⟨last, rfl, column_eq, by simp, by simpa using solid, in_progress, nofun⟩
  | some pending =>
      obtain ⟨before, rfl, start_eq, isRun⟩ := in_progress
      refine ⟨before, ?_, start_eq, by simp, ?_, isRun.opened, nofun⟩
      · simp
      · simp only [List.reverse_cons, List.forall_mem_append, List.forall_mem_singleton]
        exact ⟨isRun.solid, solid⟩

/-- The token in progress has the last character. -/
theorem InProgress.exists_covers {s : Scanner} {last : List Char} {c : Char}
    (in_progress : s.InProgress (last ++ [c])) (solid : Text.isBlank c = false) :
    ∃ token ∈ s.close, token.Covers s.line (last.length + 1) := by
  obtain ⟨line, column, current, found⟩ := s
  cases current with
  | none =>
      have blank := in_progress c List.getLast?_concat
      rw [blank] at solid
      cases solid
  | some pending =>
      obtain ⟨before, ends, start_eq, isRun⟩ := in_progress
      have lengths := congrArg List.length ends
      have positive := List.length_pos_iff.mpr isRun.nonempty
      refine ⟨_, List.mem_cons_self, rfl, ?_, ?_⟩
      all_goals
        simp only [String.toList_ofList, List.length_append, List.length_singleton] at *
        omega

/-- The scanner has read some whole lines and the start of the next one. -/
structure Reads (s : Scanner) (above : List (List Char)) (last : List Char) : Prop where
  line : s.line = above.length + 1
  column : s.column = last.length + 1
  current : s.InProgress last
  found : ∀ token ∈ s.found, ∀ rest below, token.StandsIn (above ++ (last ++ rest) :: below)
  covered : ∀ line column c, characterAt? (above ++ [last]) line column = some c →
    Text.isBlank c = false → ∃ token ∈ s.close, token.Covers (line + 1) (column + 1)

theorem reads_start : start.Reads [] [] where
  line := rfl
  column := rfl
  current := nofun
  found := nofun
  covered line column c found _ := by
    have none_at : characterAt? [] line column = some c := characterAt?_newLine found
    cases none_at

namespace Reads

variable {s : Scanner} {above : List (List Char)} {last : List Char}

/-- The tokens found, the one in progress included, stand in the text if the line ends here or
goes on with a blank. -/
theorem standsIn_close (reads : s.Reads above last) (rest : List Char)
    (closed : ∀ c ∈ rest.head?, Text.isBlank c = true) (below : List (List Char)) :
    ∀ token ∈ s.close, token.StandsIn (above ++ (last ++ rest) :: below) := by
  obtain ⟨line, column, current, found⟩ := s
  intro token member
  cases current with
  | none => exact reads.found token member rest below
  | some pending =>
      obtain ⟨start, run⟩ := pending
      rcases List.mem_cons.mp member with rfl | earlier
      · obtain ⟨before, rfl, column_eq, isRun⟩ := reads.current
        refine ⟨above, before, rest, below, ?_, reads.line, column_eq, ?_⟩
        · rw [String.toList_ofList]
        · rw [String.toList_ofList]
          exact ⟨isRun.nonempty, isRun.solid, isRun.opened, closed⟩
      · exact reads.found token earlier rest below

theorem step_newline (reads : s.Reads above last) : (s.step '\n').Reads (above ++ [last]) [] where
  line := by
    rw [List.length_append, List.length_singleton, ← reads.line]
    rfl
  column := rfl
  current := nofun
  found token member rest below := by
    have stands := reads.standsIn_close [] nofun (rest :: below) token member
    rwa [List.append_nil, ← List.singleton_append, ← List.append_assoc] at stands
  covered line column c at_position solid :=
    reads.covered line column c (characterAt?_newLine at_position) solid

theorem step_blank (reads : s.Reads above last) {c : Char} (other : c ≠ '\n')
    (blank : Text.isBlank c = true) : (s.step c).Reads above (last ++ [c]) := by
  have stepped : s.step c = ⟨s.line, s.column + 1, none, s.close⟩ := by
    rw [step, if_neg other, if_pos blank]
  rw [stepped]
  constructor
  · exact reads.line
  · rw [List.length_append, List.length_singleton, ← reads.column]
  · intro d at_end
    rw [List.getLast?_concat, Option.mem_some_iff] at at_end
    exact at_end ▸ blank
  · intro token member rest below
    have closed : ∀ d ∈ (c :: rest).head?, Text.isBlank d = true := by
      intro d at_start
      rw [List.head?_cons, Option.mem_some_iff] at at_start
      exact at_start ▸ blank
    rw [List.append_assoc]
    exact reads.standsIn_close (c :: rest) closed below token member
  · intro line column d at_position solid
    rcases characterAt?_concat at_position with earlier | ⟨_, _, rfl⟩
    · exact reads.covered line column d earlier solid
    · rw [blank] at solid
      cases solid

theorem step_solid (reads : s.Reads above last) {c : Char} (solid : Text.isBlank c = false) :
    (s.step c).Reads above (last ++ [c]) where
  line := by
    rw [step_eq_of_solid s solid]
    exact reads.line
  column := by
    rw [step_eq_of_solid s solid, List.length_append, List.length_singleton, ← reads.column]
  current := reads.current.step_solid reads.column solid
  found token member rest below := by
    rw [step_eq_of_solid s solid] at member
    rw [List.append_assoc]
    exact reads.found token member ([c] ++ rest) below
  covered line column d at_position solid' := by
    rcases characterAt?_concat at_position with earlier | ⟨rfl, rfl, rfl⟩
    · obtain ⟨token, member, covers⟩ := reads.covered line column d earlier solid'
      obtain ⟨longer, member', covers_more⟩ := exists_longer solid member
      exact ⟨longer, member', covers_more _ _ covers⟩
    · have current := reads.current.step_solid reads.column solid
      obtain ⟨token, member, covers⟩ := current.exists_covers solid
      rw [step_eq_of_solid s solid, reads.line] at covers
      exact ⟨token, member, covers⟩

/-- A scanner reads on to the end of a text, by induction on the characters ahead. -/
theorem foldl (reads : s.Reads above last) (cs : List Char) :
    ∃ above' last', (cs.foldl step s).Reads above' last' ∧
      above' ++ [last'] = above ++ (cs.splitOn '\n').modifyHead (last ++ ·) := by
  induction cs generalizing s above last with
  | nil => exact ⟨above, last, reads, by simp⟩
  | cons c rest ih =>
      rw [List.foldl_cons, List.splitOn_cons_eq_if_modifyHead]
      by_cases newline : c = '\n'
      · subst newline
        obtain ⟨above', last', ended, split⟩ := ih reads.step_newline
        refine ⟨above', last', ended, split.trans ?_⟩
        cases rest.splitOn '\n' <;> simp
      · have stepped : (s.step c).Reads above (last ++ [c]) := by
          cases blank : Text.isBlank c with
          | true => exact reads.step_blank newline blank
          | false => exact reads.step_solid blank
        obtain ⟨above', last', ended, split⟩ := ih stepped
        refine ⟨above', last', ended, split.trans ?_⟩
        rw [if_neg (by simpa using newline)]
        cases rest.splitOn '\n' <;> simp

end Reads

/-- A scan reads the lines of its text. -/
theorem reads_scan (source : String) :
    ∃ above last, (source.toList.foldl step start).Reads above last ∧
      Text.lines source = above ++ [last] := by
  obtain ⟨above, last, reads, split⟩ := reads_start.foldl source.toList
  refine ⟨above, last, reads, ?_⟩
  rw [split, Text.lines]
  cases source.toList.splitOn '\n' <;> simp

end Scanner

/-- **The positions of a scan are exact.** Every token is a run of the line and column that it
names, every character that is not blank is in one token and no other, and the tokens start one
after the other. -/
theorem scan_exact (source : String) :
    (∀ token ∈ scan source, token.StandsIn (Text.lines source)) ∧
      (∀ line column c, characterAt? (Text.lines source) line column = some c →
        Text.isBlank c = false →
          ∃! token, token ∈ scan source ∧ token.Covers (line + 1) (column + 1)) ∧
      (scan source).Pairwise fun a b => a.StartsBefore b.line b.column := by
  obtain ⟨above, last, reads, lines⟩ := Scanner.reads_scan source
  have stand : ∀ token ∈ scan source, token.StandsIn (Text.lines source) := by
    intro token member
    have stands := reads.standsIn_close [] nofun [] token (List.mem_reverse.mp member)
    rwa [List.append_nil, ← lines] at stands
  refine ⟨stand, ?_, scan_sorted source⟩
  intro line column c at_position solid
  rw [lines] at at_position
  obtain ⟨token, member, covers⟩ := reads.covered line column c at_position solid
  have scanned : token ∈ scan source := List.mem_reverse.mpr member
  refine ⟨token, ⟨scanned, covers⟩, ?_⟩
  rintro other ⟨member', covers'⟩
  exact (stand other member').eq_of_covers (stand token scanned) covers' covers

/-- A carriage return, a space without a break and a line separator are blanks that end no line,
and characters of several bytes count once. -/
theorem scan_exact_of_blanks :
    let source := "α\r\n\u00a0βγ\u2028δ"
    scan source = [⟨"α", 1, 1⟩, ⟨"βγ", 2, 2⟩, ⟨"δ", 2, 5⟩] ∧
      characterAt? (Text.lines source) 1 2 = some 'γ' ∧ Text.isBlank 'γ' = false ∧
      (⟨"βγ", 2, 2⟩ : SourceToken).StandsIn (Text.lines source) ∧
      ∃! token, token ∈ scan source ∧ token.Covers 2 3 := by
  intro source
  have scanned : scan source = [⟨"α", 1, 1⟩, ⟨"βγ", 2, 2⟩, ⟨"δ", 2, 5⟩] := by decide +kernel
  have at_position : characterAt? (Text.lines source) 1 2 = some 'γ' := by decide +kernel
  have member : ⟨"βγ", 2, 2⟩ ∈ scan source := by
    rw [scanned]
    exact List.mem_cons_of_mem _ List.mem_cons_self
  obtain ⟨stand, covered, -⟩ := scan_exact source
  exact ⟨scanned, at_position, by decide, stand _ member, covered 1 2 'γ' at_position (by decide)⟩

end Source

end WordMachine
