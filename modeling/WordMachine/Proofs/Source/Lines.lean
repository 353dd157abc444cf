import Mathlib.Data.List.Basic
import Mathlib.Data.String.Basic
import WordMachine.Source.Scan

/-! # A scan line by line

A source can also be read one line at a time. A line feed ends a line and takes a carriage return
before it along, and a last line without characters is none. In a line every character has the
offset of its first byte; where the token in progress starts is kept as such an offset, and a blank
behind the last character ends the last token. The text of a token is cut out of its line, and its
column counts the characters before the cut.

These are the tokens of a scan of the whole text (`Source.scanLines_eq_scan`).
-/

namespace WordMachine

namespace Text

/-! ## Lines -/

/-- A line without the carriage return before its line feed. -/
def dropReturn (line : List Char) : List Char :=
  if line.getLast? = some '\r' then line.dropLast else line

/-- The lines of a text, of which some characters of the first are read already. -/
def linesAfter (line : List Char) : List Char → List (List Char)
  | [] => if line = [] then [] else [line]
  | c :: rest =>
    if c = '\n' then dropReturn line :: linesAfter [] rest else linesAfter (line ++ [c]) rest

/-- A carriage return is dropped or there is none. -/
theorem dropReturn_eq_or (line : List Char) :
    dropReturn line = line ∨ line = dropReturn line ++ ['\r'] := by
  unfold dropReturn
  split
  · next last => exact .inr (List.dropLast_append_getLast? _ last).symm
  · exact .inl rfl

/-! ## Offsets -/

/-- The characters of a text with the offsets of their first bytes. -/
def charIndices (offset : Nat) : List Char → List (Nat × Char)
  | [] => []
  | c :: cs => (offset, c) :: charIndices (offset + c.utf8Size) cs

/-- The characters of a line from one offset to another. -/
def slice (line : List Char) (start stop : Nat) : List Char :=
  ((charIndices 0 line).filter fun p => start ≤ p.1 ∧ p.1 < stop).map Prod.snd

/-- Offsets go on behind what comes before. -/
theorem charIndices_append (offset : Nat) (first second : List Char) :
    charIndices offset (first ++ second) =
      charIndices offset first ++ charIndices (offset + String.utf8Len first) second := by
  induction first generalizing offset with
  | nil => rfl
  | cons c rest ih =>
      rw [List.cons_append, charIndices, charIndices, ih, String.utf8Len_cons, List.cons_append,
        Nat.add_assoc, Nat.add_comm c.utf8Size]

theorem map_snd_charIndices (offset : Nat) (cs : List Char) :
    (charIndices offset cs).map Prod.snd = cs := by
  induction cs generalizing offset with
  | nil => rfl
  | cons c rest ih => rw [charIndices, List.map_cons, ih]

/-- Offsets start where they are told to and stay below the end of the text. -/
theorem bounds_of_mem_charIndices {offset : Nat} {cs : List Char} {p : Nat × Char}
    (member : p ∈ charIndices offset cs) : offset ≤ p.1 ∧ p.1 < offset + String.utf8Len cs := by
  induction cs generalizing offset with
  | nil => cases member
  | cons c rest ih =>
      have size := c.utf8Size_pos
      rw [String.utf8Len_cons]
      rcases List.mem_cons.mp member with rfl | member
      · exact ⟨Nat.le_refl _, by omega⟩
      · obtain ⟨above, below⟩ := ih member
        omega

/-- A slice whose ends are those of a part of the line is that part. -/
theorem slice_append (before run after : List Char) :
    slice (before ++ run ++ after) (String.utf8Len before) (String.utf8Len (before ++ run)) =
      run := by
  have none_before : (charIndices 0 before).filter (fun p =>
      String.utf8Len before ≤ p.1 ∧ p.1 < String.utf8Len (before ++ run)) = [] := by
    refine List.filter_eq_nil_iff.mpr fun p member inside => ?_
    have bounds := bounds_of_mem_charIndices member
    have from_start := (of_decide_eq_true inside).1
    omega
  have all_run : (charIndices (0 + String.utf8Len before) run).filter (fun p =>
      String.utf8Len before ≤ p.1 ∧ p.1 < String.utf8Len (before ++ run)) =
        charIndices (0 + String.utf8Len before) run := by
    refine List.filter_eq_self.mpr fun p member => decide_eq_true ?_
    have bounds := bounds_of_mem_charIndices member
    rw [String.utf8Len_append]
    omega
  have none_after : (charIndices (0 + String.utf8Len (before ++ run)) after).filter (fun p =>
      String.utf8Len before ≤ p.1 ∧ p.1 < String.utf8Len (before ++ run)) = [] := by
    refine List.filter_eq_nil_iff.mpr fun p member inside => ?_
    have bounds := bounds_of_mem_charIndices member
    have to_end := (of_decide_eq_true inside).2
    omega
  rw [slice, charIndices_append, charIndices_append, List.filter_append, List.filter_append,
    none_before, all_run, none_after, List.nil_append, List.append_nil, map_snd_charIndices]

/-- The characters before an offset. -/
theorem slice_zero (before after : List Char) :
    slice (before ++ after) 0 (String.utf8Len before) = before :=
  slice_append [] before after

end Text

namespace Source

/-! ## Scanners of a line -/

/-- What was found in this and the earlier lines, and the offset at which the token in progress
starts. -/
structure LineScanner where
  tokens : List SourceToken
  start : Option Nat

/-- One more character of a line, with its offset. -/
def LineScanner.step (number : Nat) (line : List Char) (s : LineScanner) :
    Nat × Char → LineScanner
  | (offset, c) =>
    match Text.isBlank c, s.start with
    | false, none => { s with start := some offset }
    | true, some start =>
      let token : SourceToken :=
        { text := String.ofList (Text.slice line start offset)
          line := number
          column := (Text.slice line 0 start).length + 1 }
      ⟨s.tokens ++ [token], none⟩
    | _, _ => s

/-- Adds the tokens of a line; a blank behind the line ends its last token. -/
def scanLine (tokens : List SourceToken) (number : Nat) (line : List Char) : List SourceToken :=
  ((Text.charIndices 0 line ++ [(String.utf8Len line, ' ')]).foldl
    (LineScanner.step number line) ⟨tokens, none⟩).tokens

/-- Adds the tokens of lines, which are counted from a number on. -/
def scanLinesFrom (tokens : List SourceToken) (number : Nat) :
    List (List Char) → List SourceToken
  | [] => tokens
  | line :: rest => scanLinesFrom (scanLine tokens number line) (number + 1) rest

/-- The tokens of a text, found line by line. -/
def scanLines (source : String) : List SourceToken :=
  scanLinesFrom [] 1 (Text.linesAfter [] source.toList)

/-! ## Both scanners -/

/-- A scanner of the text and one of the line have read the same part of the line: they have found
the same, and a token in progress starts behind the same characters. -/
structure LineScanner.Follows (number : Nat) (before : List Char) (s : Scanner)
    (l : LineScanner) : Prop where
  line : s.line = number
  column : s.column = before.length + 1
  found : l.tokens = s.found.reverse
  current : s.current = none ∧ l.start = none ∨
    ∃ start run, before = start ++ run.reverse ∧ s.current = some (start.length + 1, run) ∧
      l.start = some (String.utf8Len start)

namespace LineScanner.Follows

variable {number : Nat} {before : List Char} {s : Scanner} {l : LineScanner} {c : Char}

/-- A blank ends the token in progress on both sides. -/
theorem step_of_blank (follows : Follows number before s l) (blank : Text.isBlank c = true)
    (after : List Char) :
    l.step number (before ++ after) (String.utf8Len before, c) =
      ⟨s.close.reverse, none⟩ := by
  obtain ⟨lineNumber, column, current, tokens⟩ := s
  obtain ⟨found, start⟩ := l
  obtain ⟨rfl, rfl, rfl, ⟨rfl, rfl⟩ | ⟨start, run, rfl, rfl, rfl⟩⟩ := follows
  · simp only [step, blank, Scanner.close]
  · have cut : Text.slice (start ++ run.reverse ++ after) 0 (String.utf8Len start) = start := by
      rw [List.append_assoc]
      exact Text.slice_zero start _
    simp only [step, blank, Scanner.close, Text.slice_append, cut, List.reverse_cons]

/-- One character of a line: both scanners go on alike. -/
theorem step (follows : Follows number before s l) (inside : c ≠ '\n') (after : List Char) :
    Follows number (before ++ [c]) (s.step c)
      (l.step number (before ++ c :: after) (String.utf8Len before, c)) := by
  cases blank : Text.isBlank c with
  | true =>
      rw [follows.step_of_blank blank]
      obtain ⟨lineNumber, column, current, tokens⟩ := s
      obtain ⟨rfl, rfl, -, -⟩ := follows
      rw [Scanner.step, if_neg inside, if_pos blank]
      exact ⟨rfl, by simp, rfl, .inl ⟨rfl, rfl⟩⟩
  | false =>
      have solid : ¬Text.isBlank c = true := by
        rw [blank]
        exact Bool.false_ne_true
      obtain ⟨lineNumber, column, current, tokens⟩ := s
      obtain ⟨found, start⟩ := l
      rw [Scanner.step, if_neg inside, if_neg solid]
      obtain ⟨rfl, rfl, rfl, ⟨rfl, rfl⟩ | ⟨start, run, rfl, rfl, rfl⟩⟩ := follows
      · simp only [LineScanner.step, blank]
        exact ⟨rfl, by simp, rfl, .inr ⟨before, [c], rfl, rfl, rfl⟩⟩
      · simp only [LineScanner.step, blank]
        exact ⟨rfl, by simp [Nat.add_assoc], rfl, .inr ⟨start, c :: run, by simp, rfl, rfl⟩⟩

/-- The rest of a line: both scanners go on alike up to its end. -/
theorem foldl (follows : Follows number before s l) {after : List Char} (inside : '\n' ∉ after) :
    Follows number (before ++ after) (after.foldl Scanner.step s)
      ((Text.charIndices (String.utf8Len before) after).foldl
        (LineScanner.step number (before ++ after)) l) := by
  induction after generalizing before s l with
  | nil =>
      rw [List.append_nil]
      exact follows
  | cons c rest ih =>
      rw [List.mem_cons, not_or] at inside
      have next := ih (follows.step (Ne.symm inside.1) rest) inside.2
      rw [List.append_assoc, String.utf8Len_append, String.utf8Len_cons, String.utf8Len_nil,
        Nat.zero_add] at next
      exact next

end LineScanner.Follows

/-- At the start of a line nothing is in progress on either side. -/
theorem follows_start (number : Nat) (tokens : List SourceToken) :
    LineScanner.Follows number [] ⟨number, 1, none, tokens.reverse⟩ ⟨tokens, none⟩ :=
  ⟨rfl, rfl, (List.reverse_reverse tokens).symm, .inl ⟨rfl, rfl⟩⟩

/-- A line is scanned like the text of its characters, at whose end the token in progress ends. -/
theorem scanLine_eq {tokens : List SourceToken} {number : Nat} {line : List Char}
    (inside : '\n' ∉ line) :
    scanLine tokens number line =
      (line.foldl Scanner.step ⟨number, 1, none, tokens.reverse⟩).close.reverse := by
  have start := follows_start number tokens
  have blank : Text.isBlank ' ' = true := by decide
  have last := (start.foldl inside).step_of_blank blank []
  rw [List.append_nil, List.nil_append] at last
  rw [scanLine, List.foldl_append, List.foldl_cons, List.foldl_nil]
  exact congrArg LineScanner.tokens last

/-- Nothing is found in a blank. -/
theorem Scanner.close_step_of_blank (s : Scanner) {c : Char} (blank : Text.isBlank c = true) :
    (s.step c).close = s.close := by
  unfold Scanner.step
  rw [if_pos blank]
  split <;> rfl

/-- A carriage return before a line feed is in no token. -/
theorem close_foldl_dropReturn (line : List Char) (s : Scanner) :
    ((Text.dropReturn line).foldl Scanner.step s).close = (line.foldl Scanner.step s).close := by
  rcases Text.dropReturn_eq_or line with same | returned
  · rw [same]
  · have blank : Text.isBlank '\r' = true := by decide
    conv_rhs => rw [returned, List.foldl_append, List.foldl_cons, List.foldl_nil]
    exact (Scanner.close_step_of_blank _ blank).symm

/-- A line without a line feed is read in one line. -/
theorem line_foldl {line : List Char} (inside : '\n' ∉ line) (number : Nat)
    (tokens : List SourceToken) :
    (line.foldl Scanner.step ⟨number, 1, none, tokens.reverse⟩).line = number :=
  ((follows_start number tokens).foldl inside).line

/-- Lines of which the first is read in part are scanned like the text. -/
theorem scanLinesFrom_eq (tokens : List SourceToken) (number : Nat) {line : List Char}
    (inside : '\n' ∉ line) (rest : List Char) :
    scanLinesFrom tokens number (Text.linesAfter line rest) =
      (rest.foldl Scanner.step
        (line.foldl Scanner.step ⟨number, 1, none, tokens.reverse⟩)).close.reverse := by
  induction rest generalizing tokens number line with
  | nil =>
      unfold Text.linesAfter
      split
      · next empty =>
          subst empty
          exact (List.reverse_reverse tokens).symm
      · exact scanLine_eq inside
  | cons c rest ih =>
      unfold Text.linesAfter
      split
      · next ends =>
          subst ends
          have kept : '\n' ∉ Text.dropReturn line := by
            rcases Text.dropReturn_eq_or line with same | returned
            · rwa [same]
            · rw [returned] at inside
              exact fun member => inside (List.mem_append_left _ member)
          have ended : (line.foldl Scanner.step ⟨number, 1, none, tokens.reverse⟩).step '\n' =
              ⟨number + 1, 1, none, (scanLine tokens number (Text.dropReturn line)).reverse⟩ := by
            rw [scanLine_eq kept, close_foldl_dropReturn, List.reverse_reverse, Scanner.step,
              if_pos rfl, line_foldl inside]
          rw [scanLinesFrom, ih _ _ List.not_mem_nil, List.foldl_cons, ended]
          rfl
      · next other =>
          have longer : '\n' ∉ line ++ [c] := by
            simp [inside, Ne.symm other]
          rw [ih _ _ longer, List.foldl_append]
          rfl

/-- **Scanning line by line and scanning the text at once find the same tokens.** -/
theorem scanLines_eq_scan (source : String) : scanLines source = scan source :=
  scanLinesFrom_eq [] 1 List.not_mem_nil source.toList

end Source

end WordMachine
