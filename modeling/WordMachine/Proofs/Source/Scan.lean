import WordMachine.Source.Scan

/-! # The order of source tokens

A scan finds tokens at positions that only increase, line by line and within a line.
-/

namespace WordMachine

/-- The token starts before a position. -/
def SourceToken.StartsBefore (token : SourceToken) (line column : Nat) : Prop :=
  token.line < line ∨ token.line = line ∧ token.column < column

namespace Source

/-- Tokens, the last first, that start one before the other and all before a position. -/
def FoundBefore (line column : Nat) (tokens : List SourceToken) : Prop :=
  (tokens.Pairwise fun later earlier => earlier.StartsBefore later.line later.column) ∧
    ∀ token ∈ tokens, token.StartsBefore line column

namespace FoundBefore

variable {line column : Nat} {tokens : List SourceToken}

theorem nextLine (found : FoundBefore line column tokens) : FoundBefore (line + 1) 1 tokens := by
  refine ⟨found.1, fun token member => ?_⟩
  rcases found.2 token member with earlier | ⟨here, _⟩
  · exact .inl (by omega)
  · exact .inl (by omega)

theorem nextColumn (found : FoundBefore line column tokens) :
    FoundBefore line (column + 1) tokens := by
  refine ⟨found.1, fun token member => ?_⟩
  rcases found.2 token member with earlier | ⟨here, before⟩
  · exact .inl earlier
  · exact .inr ⟨here, by omega⟩

/-- A token that starts at the position is found with the next character. -/
theorem cons (found : FoundBefore line column tokens) (text : String) :
    FoundBefore line (column + 1) (⟨text, line, column⟩ :: tokens) := by
  refine ⟨List.pairwise_cons.mpr ⟨found.2, found.1⟩, fun token member => ?_⟩
  rcases List.mem_cons.mp member with rfl | member
  · exact .inr ⟨rfl, by simp⟩
  · exact found.nextColumn.2 token member

/-- The last token may get longer while its start stays. -/
theorem relabel {text text' : String} {start : Nat}
    (found : FoundBefore line column (⟨text, line, start⟩ :: tokens)) :
    FoundBefore line column (⟨text', line, start⟩ :: tokens) := by
  obtain ⟨sorted, before⟩ := found
  rw [List.pairwise_cons] at sorted
  rw [List.forall_mem_cons] at before
  exact ⟨List.pairwise_cons.mpr sorted, List.forall_mem_cons.mpr before⟩

end FoundBefore

namespace Scanner

/-- Every character keeps the order of what is found, the token in progress included. -/
theorem foundBefore_step {s : Scanner} (found : FoundBefore s.line s.column s.close) (c : Char) :
    FoundBefore (s.step c).line (s.step c).column (s.step c).close := by
  unfold step
  split
  · exact found.nextLine
  · split
    · exact found.nextColumn
    · obtain ⟨line, column, current, tokens⟩ := s
      cases current with
      | none => exact FoundBefore.cons found _
      | some run => exact (FoundBefore.relabel found).nextColumn

theorem foundBefore_foldl {s : Scanner} (found : FoundBefore s.line s.column s.close)
    (cs : List Char) :
    FoundBefore (cs.foldl step s).line (cs.foldl step s).column (cs.foldl step s).close := by
  induction cs generalizing s with
  | nil => exact found
  | cons c rest ih => exact ih (foundBefore_step found c)

end Scanner

/-- The tokens of a source start one after the other. -/
theorem scan_sorted (source : String) :
    (scan source).Pairwise fun a b => a.StartsBefore b.line b.column := by
  have start : FoundBefore Scanner.start.line Scanner.start.column Scanner.start.close :=
    ⟨.nil, fun _ member => nomatch member⟩
  exact List.pairwise_reverse.mpr (Scanner.foundBefore_foldl start source.toList).1

/-- The lines of the tokens of a source never decrease. -/
theorem scan_lines (source : String) : (scan source).Pairwise fun a b => a.line ≤ b.line := by
  refine (scan_sorted source).imp ?_
  rintro a b (earlier | ⟨here, _⟩)
  · exact Nat.le_of_lt earlier
  · exact Nat.le_of_eq here

end Source

end WordMachine
