import WordMachine.Proofs.Machine.Nesting
import WordMachine.Proofs.Source.Load

/-! # Sources that are joined

A source that stands on the lines after another one is taken apart as if it stood alone, only
further down: no token crosses the line between the two, and an item that ends in the first
source ends there whatever follows (`Source.program_append`). Loading the two joined is
therefore loading the one and then the other (`Source.load_joined`).
-/

namespace WordMachine

/-- The token on a later line. -/
def SourceToken.lowered (lines : Nat) (token : SourceToken) : SourceToken :=
  { token with line := lines + token.line }

namespace Source

/-! ## Scanning -/

/-- How many lines of a source are ended. -/
def lineEnds (source : String) : Nat :=
  source.toList.count '\n'

namespace Scanner

/-- The scanner on later lines, with tokens that were found before them. -/
def lowered (lines : Nat) (before : List SourceToken) (s : Scanner) : Scanner :=
  ⟨lines + s.line, s.column, s.current, s.found.map (.lowered lines) ++ before⟩

/-- The tokens found further down are those found, moved. -/
theorem close_lowered (lines : Nat) (before : List SourceToken) (s : Scanner) :
    (s.lowered lines before).close = s.close.map (.lowered lines) ++ before := by
  obtain ⟨line, column, current, found⟩ := s
  cases current with
  | none => rfl
  | some run => rfl

/-- A scanner further down takes a step like one that is not. -/
theorem step_lowered (lines : Nat) (before : List SourceToken) (s : Scanner) (c : Char) :
    (s.lowered lines before).step c = (s.step c).lowered lines before := by
  have closed := close_lowered lines before s
  unfold step
  split
  · rw [closed]
    rfl
  · split
    · rw [closed]
      rfl
    · obtain ⟨line, column, current, found⟩ := s
      cases current with
      | none => rfl
      | some run => rfl

/-- Scanners that start one below the other stay so. -/
theorem foldl_step_lowered (lines : Nat) (before : List SourceToken) (s : Scanner)
    (cs : List Char) :
    cs.foldl step (s.lowered lines before) = (cs.foldl step s).lowered lines before := by
  induction cs generalizing s with
  | nil => rfl
  | cons c rest ih => rw [List.foldl_cons, List.foldl_cons, step_lowered, ih]

/-- Only a line feed leads to the next line. -/
theorem line_step (s : Scanner) (c : Char) :
    (s.step c).line = s.line + if c = '\n' then 1 else 0 := by
  unfold step
  split
  · rfl
  · split
    · rfl
    · split <;> rfl

/-- The line of a scanner counts the line feeds that it has seen. -/
theorem line_foldl_step (s : Scanner) (cs : List Char) :
    (cs.foldl step s).line = s.line + cs.count '\n' := by
  induction cs generalizing s with
  | nil => rfl
  | cons c rest ih =>
      rw [List.foldl_cons, ih, line_step, List.count_cons]
      by_cases ends : c = '\n'
      · simp only [ends, if_true, beq_self_eq_true]
        omega
      · simp [ends]

end Scanner

/-- The tokens of joined sources are those of the first and, further down, those of the
second. -/
theorem scan_joined (first second : String) :
    scan (first ++ "\n" ++ second) =
      scan first ++ (scan second).map (.lowered (1 + lineEnds first)) := by
  -- The line feed ends the token in progress and starts the scanner again on the next line.
  have restarted (s : Scanner) : s.step '\n' = Scanner.start.lowered s.line s.close := rfl
  have chars : (first ++ "\n" ++ second).toList = first.toList ++ '\n' :: second.toList := by
    simp
  have line := Scanner.line_foldl_step Scanner.start first.toList
  unfold scan lineEnds
  rw [chars, List.foldl_append, List.foldl_cons, restarted, Scanner.foldl_step_lowered,
    Scanner.close_lowered, List.reverse_append, List.map_reverse, line]
  rfl

/-- No token stands below the last line. -/
theorem line_le_of_mem_scan {source : String} {token : SourceToken} (member : token ∈ scan source) :
    token.line ≤ 1 + lineEnds source := by
  have start : FoundBefore Scanner.start.line Scanner.start.column Scanner.start.close :=
    ⟨.nil, fun _ member => nomatch member⟩
  have found := Scanner.foundBefore_foldl start source.toList
  have line := Scanner.line_foldl_step Scanner.start source.toList
  rcases found.2 token (List.mem_reverse.mp member) with earlier | ⟨here, -⟩
  · rw [line] at earlier
    exact Nat.le_of_lt earlier
  · rw [line] at here
    exact Nat.le_of_eq here

theorem one_le_line_of_mem_scan {source : String} {token : SourceToken}
    (member : token ∈ scan source) : 1 ≤ token.line := by
  -- Lines are counted from one, as if a scan from line zero were moved by a line.
  have moved : Scanner.start = Scanner.lowered 1 [] ⟨0, 1, none, []⟩ := rfl
  rw [scan, moved, Scanner.foldl_step_lowered, Scanner.close_lowered, List.append_nil,
    List.mem_reverse] at member
  obtain ⟨original, _, rfl⟩ := List.mem_map.mp member
  exact Nat.le_add_right _ _

/-! ## Items that end before what follows -/

/-- No token of the second list is on a line of the first. -/
def Apart (tokens more : List SourceToken) : Prop :=
  ∀ token ∈ tokens, ∀ other ∈ more, other.line ≠ token.line

/-- What is left of a text stays apart from what follows. -/
theorem Apart.of_suffix {tokens rest more : List SourceToken} (apart : Apart tokens more)
    (suffix : rest <:+ tokens) : Apart rest more :=
  fun token member => apart token (suffix.subset member)

/-- Sources that are joined share no line. -/
theorem apart_joined (first second : String) :
    Apart (scan first) ((scan second).map (.lowered (1 + lineEnds first))) := by
  intro token member other moved
  obtain ⟨original, inside, rfl⟩ := List.mem_map.mp moved
  have last := line_le_of_mem_scan member
  have first_line := one_le_line_of_mem_scan inside
  have line : (original.lowered (1 + lineEnds first)).line = 1 + lineEnds first + original.line :=
    rfl
  omega

section Append

variable {tokens after rest more : List SourceToken}

/-- A comment ends where it did, whatever follows on later lines. -/
theorem CommentTo.append (comment : CommentTo tokens rest) (apart : Apart tokens more) :
    CommentTo (tokens ++ more) (rest ++ more) := by
  cases comment with
  | @line backslash taken _ text here elsewhere =>
      rw [List.cons_append, List.append_assoc]
      apply CommentTo.line text here
      intro token member
      rcases List.mem_append.mp member with inside | outside
      · exact elsewhere token inside
      · exact apart backslash List.mem_cons_self token outside
  | group group =>
      rw [List.append_assoc]
      exact .group group

/-- An effect that is followed by something is the same when more follows. -/
theorem EffectTo.append {effect : Option String} (read : EffectTo tokens effect after)
    (goesOn : after ≠ []) : EffectTo (tokens ++ more) effect (after ++ more) := by
  cases read with
  | absent absent =>
      apply EffectTo.absent
      rwa [List.head?_append_of_ne_nil _ goesOn]
  | group group =>
      rw [List.append_assoc]
      exact .group group

/-- A body ends where it did. -/
theorem BodyTo.append {body : List String} (read : BodyTo tokens body rest)
    (apart : Apart tokens more) : BodyTo (tokens ++ more) body (rest ++ more) := by
  induction read with
  | done text => exact .done text
  | token plain _ ih => exact .token plain (ih (apart.of_suffix (List.suffix_cons _ _)))
  | comment comment _ ih =>
      exact .comment (comment.append apart) (ih (apart.of_suffix comment.leftOf.suffix))

/-- An item takes the same tokens when more follow on other lines. -/
theorem ItemTo.append {item : Item} (read : ItemTo tokens item rest) (apart : Apart tokens more) :
    ItemTo (tokens ++ more) item (rest ++ more) := by
  cases read with
  | comment comment => exact .comment (comment.append apart)
  | @definition _ _ _ after _ _ _ text plain effect body =>
      have goesOn : after ≠ [] := by
        intro ended
        subst ended
        cases body.leftOf
      have inner : Apart after more :=
        apart.of_suffix ((effect.suffix.trans (List.suffix_cons _ _)).trans (List.suffix_cons _ _))
      exact .definition text plain (effect.append goesOn) (body.append inner)
  | forget text => exact .forget text
  | dispatch plain other => exact .dispatch plain other

/-- What is left after some items ends the tokens. -/
theorem ItemsTo.suffix {items : List Item} (read : ItemsTo tokens items rest) :
    rest <:+ tokens := by
  induction read with
  | none tokens => exact List.suffix_rfl
  | item first _ ih => exact ih.trans first.leftOf.suffix

/-- Items that end before other tokens are the first of all tokens together. -/
theorem Decomposes.append {items : List Item} {p : Program} (read : ItemsTo tokens items after)
    (apart : Apart tokens more) (decomposes : Decomposes (after ++ more) p rest) :
    Decomposes (tokens ++ more) ⟨items ++ p.items, p.blame⟩ rest := by
  induction read with
  | none tokens => exact decomposes
  | item first _ ih =>
      exact .cons (first.append apart) (ih (apart.of_suffix first.leftOf.suffix) decomposes)

/-- The program of tokens that are joined: the items that end in the first ones, and the program
of what these leave with the others. -/
theorem program_append {items : List Item} (read : ItemsTo tokens items after)
    (apart : Apart tokens more) (ordered : LinesOrdered (tokens ++ more)) :
    program (tokens ++ more) =
      ⟨items ++ (program (after ++ more)).items, (program (after ++ more)).blame⟩ := by
  obtain ⟨before, split⟩ := read.suffix
  have remaining : LinesOrdered (after ++ more) := by
    apply ordered.of_suffix
    exact ⟨before, by rw [← split, List.append_assoc]⟩
  obtain ⟨rest, decomposes⟩ := decomposes_program remaining
  obtain ⟨_, decomposes'⟩ := decomposes_program ordered
  exact ((Decomposes.append read apart decomposes).unique decomposes').1

end Append

/-! ## Items further down -/

/-- A fault whose token is moved down. -/
def Blame.lowered (lines : Nat) (blame : Blame) : Blame :=
  { blame with token := blame.token.lowered lines }

/-- An item whose tokens are moved down. -/
def Item.lowered (lines : Nat) : Item → Item
  | .comment => .comment
  | .definition name effect body => .definition (name.lowered lines) effect body
  | .forget name => .forget (name.lowered lines)
  | .dispatch token => .dispatch (token.lowered lines)

/-- A program whose tokens are moved down. -/
def Program.lowered (lines : Nat) (p : Program) : Program :=
  ⟨p.items.map (.lowered lines), p.blame.map (.lowered lines)⟩

section Lowered

variable {tokens after rest : List SourceToken} (lines : Nat)

/-- Whether a token is plain is told by its text. -/
theorem Plain.lowered {token : SourceToken} (plain : Plain token) : Plain (token.lowered lines) :=
  ⟨plain.colon, plain.semicolon, plain.opening, plain.backslash⟩

/-- A special token stays special. -/
theorem not_plain_lowered {token : SourceToken} (special : ¬Plain token) :
    ¬Plain (token.lowered lines) :=
  fun plain => special ⟨plain.colon, plain.semicolon, plain.opening, plain.backslash⟩

/-- A property that does not look at lines is kept by moving down. -/
theorem forall_mem_map_lowered {P Q : SourceToken → Prop}
    (kept : ∀ token, P token → Q (token.lowered lines)) (all : ∀ token ∈ tokens, P token) :
    ∀ token ∈ tokens.map (.lowered lines), Q token := by
  intro token member
  obtain ⟨original, inside, rfl⟩ := List.mem_map.mp member
  exact kept original (all original inside)

/-- A group stays a group. -/
theorem IsGroup.lowered (group : IsGroup tokens) : IsGroup (tokens.map (.lowered lines)) := by
  obtain ⟨opens, unclosed, closes⟩ := group
  rw [List.map_cons, List.map_append]
  exact .group opens (forall_mem_map_lowered lines (fun _ open_token => open_token) unclosed) closes

/-- Lines are only compared, so a comment on later lines ends where it did. -/
theorem CommentTo.lowered (comment : CommentTo tokens rest) :
    CommentTo (tokens.map (.lowered lines)) (rest.map (.lowered lines)) := by
  cases comment with
  | line text here elsewhere =>
      rw [List.map_cons, List.map_append]
      refine .line text ?_ ?_
      · exact forall_mem_map_lowered lines (fun _ same => congrArg (lines + ·) same) here
      · refine forall_mem_map_lowered lines ?_ elsewhere
        intro token apart same
        exact apart (Nat.add_left_cancel same)
  | group group =>
      rw [List.map_append]
      exact .group (group.lowered lines)

/-- An effect is read alike further down. -/
theorem EffectTo.lowered {effect : Option String} (read : EffectTo tokens effect after) :
    EffectTo (tokens.map (.lowered lines)) effect (after.map (.lowered lines)) := by
  cases read with
  | absent absent =>
      apply EffectTo.absent
      intro token head
      rw [List.head?_map] at head
      obtain ⟨original, found, rfl⟩ := Option.map_eq_some_iff.mp head
      exact absent original found
  | @group group _ isGroup =>
      have texts :
          (group.map (.lowered lines)).map SourceToken.text = group.map SourceToken.text := by
        rw [List.map_map]
        rfl
      rw [List.map_append, ← texts]
      exact .group (isGroup.lowered lines)

/-- A body is read alike further down. -/
theorem BodyTo.lowered {body : List String} (read : BodyTo tokens body rest) :
    BodyTo (tokens.map (.lowered lines)) body (rest.map (.lowered lines)) := by
  induction read with
  | done text => exact .done text
  | token plain _ ih => exact .token (plain.lowered lines) ih
  | comment comment _ ih => exact .comment (comment.lowered lines) ih

/-- A body has the same fault further down. -/
theorem BodyFault.lowered {name : SourceToken} {blame : Blame}
    (fault : BodyFault name tokens blame) :
    BodyFault (name.lowered lines) (tokens.map (.lowered lines)) (blame.lowered lines) := by
  induction fault with
  | ended => exact .ended
  | nested text => exact .nested text
  | unclosed text unclosed =>
      exact .unclosed text (forall_mem_map_lowered lines (fun _ open_token => open_token) unclosed)
  | token plain _ ih => exact .token (plain.lowered lines) ih
  | comment comment _ ih => exact .comment (comment.lowered lines) ih

/-- An item is read alike further down. -/
theorem ItemTo.lowered {item : Item} (read : ItemTo tokens item rest) :
    ItemTo (tokens.map (.lowered lines)) (item.lowered lines) (rest.map (.lowered lines)) := by
  cases read with
  | comment comment => exact .comment (comment.lowered lines)
  | definition text plain effect body =>
      exact .definition text (plain.lowered lines) (effect.lowered lines) (body.lowered lines)
  | forget text => exact .forget text
  | dispatch plain other => exact .dispatch (plain.lowered lines) other

/-- An item has the same fault further down. -/
theorem ItemFault.lowered {blame : Blame} (fault : ItemFault tokens blame) :
    ItemFault (tokens.map (.lowered lines)) (blame.lowered lines) := by
  have still_open {tokens : List SourceToken} (unclosed : ∀ token ∈ tokens, ¬Closes token) :=
    forall_mem_map_lowered (Q := fun token => ¬Closes token) lines (fun _ open_token => open_token)
      unclosed
  cases fault with
  | strayEnd text => exact .strayEnd text
  | unclosed text unclosed => exact .unclosed text (still_open unclosed)
  | nothingForgotten text => exact .nothingForgotten text
  | nothingDefined text => exact .nothingDefined text
  | misnamed text special => exact .misnamed text (not_plain_lowered lines special)
  | unclosedEffect text plain opening unclosed =>
      exact .unclosedEffect text (plain.lowered lines) opening (still_open unclosed)
  | body text plain effect fault =>
      exact .body text (plain.lowered lines) (effect.lowered lines) (fault.lowered lines)

/-- Items are read alike further down. -/
theorem ItemsTo.lowered {items : List Item} (read : ItemsTo tokens items rest) :
    ItemsTo (tokens.map (.lowered lines)) (items.map (.lowered lines))
      (rest.map (.lowered lines)) := by
  induction read with
  | none tokens => exact .none _
  | item first _ ih => exact .item (first.lowered lines) ih

/-- A text decomposes alike further down. -/
theorem Decomposes.lowered {p : Program} (decomposes : Decomposes tokens p rest) :
    Decomposes (tokens.map (.lowered lines)) (p.lowered lines) (rest.map (.lowered lines)) := by
  obtain ⟨items, blame⟩ := p
  obtain ⟨read, -, fault⟩ := decomposes
  cases blame with
  | none =>
      cases fault
      refine ⟨read.lowered lines, fun item after read => ?_, rfl⟩
      cases read.leftOf
  | some blame =>
      have moved := ItemFault.lowered lines fault
      exact ⟨read.lowered lines, moved.not_itemTo, moved⟩

end Lowered

/-- A source further down has the items and the fault of the source, further down. -/
theorem program_lowered {tokens : List SourceToken} (ordered : LinesOrdered tokens) (lines : Nat) :
    program (tokens.map (.lowered lines)) = (program tokens).lowered lines := by
  obtain ⟨rest, decomposes⟩ := decomposes_program ordered
  exact takeItems_of_decomposes (decomposes.lowered lines) le_rfl

/-! ## Loading -/

/-- An error whose position is moved down. -/
def LoadError.lowered (lines : Nat) (e : LoadError) : LoadError :=
  { e with line := lines + e.line }

/-- The end of a load whose source stands further down. -/
def Loaded.lowered (lines : Nat) (loaded : Loaded) : Loaded :=
  { loaded with error := loaded.error.map (.lowered lines) }

/-- A token further down is blamed further down. -/
theorem Loaded.ofOutcome_lowered (lines : Nat) (token : SourceToken) (o : Outcome) :
    Loaded.ofOutcome (token.lowered lines) o = (Loaded.ofOutcome token o).lowered lines := by
  obtain ⟨m, _ | error⟩ := o <;> rfl

section Interpreter

variable (interpreter : Machine.Interpreter)

/-- An item does the same further down; only the position of its error moves. -/
theorem perform_lowered (m : Machine) (lines : Nat) (item : Item) :
    interpreter.perform m (item.lowered lines) =
      (interpreter.perform m item).map (.lowered lines) := by
  cases item with
  | comment => rfl
  | definition name effect body => exact congrArg some (Loaded.ofOutcome_lowered lines name _)
  | forget name => exact congrArg some (Loaded.ofOutcome_lowered lines name _)
  | dispatch token =>
      rw [Item.lowered, Machine.Interpreter.perform, Machine.Interpreter.perform, Option.map_map]
      exact congrFun (congrArg Option.map (funext (Loaded.ofOutcome_lowered lines token))) _

/-- A program further down does the same and reports errors further down, by induction on its
items. -/
theorem performProgram_lowered (m : Machine) (lines : Nat) (p : Program) :
    interpreter.performProgram m (p.lowered lines) =
      (interpreter.performProgram m p).map (.lowered lines) := by
  obtain ⟨items, blame⟩ := p
  induction items generalizing m with
  | nil => cases blame <;> rfl
  | cons item items ih =>
      have moved := perform_lowered interpreter m lines item
      rw [Program.lowered, List.map_cons, interpreter.performProgram_cons,
        interpreter.performProgram_cons, moved]
      cases interpreter.perform m item with
      | none => rfl
      | some loaded =>
          simp only [Option.map_some, Option.bind_some]
          obtain ⟨next, _ | error⟩ := loaded
          · exact ih next
          · rfl

/-- Items are done before the program that follows them, which is not reached if one of them
fails. -/
theorem performProgram_append (m : Machine) (items : List Item) (p : Program) :
    interpreter.performProgram m ⟨items ++ p.items, p.blame⟩ =
      (interpreter.performProgram m ⟨items, none⟩).bind fun loaded =>
        match loaded.error with
        | none => interpreter.performProgram loaded.machine p
        | some _ => some loaded := by
  induction items generalizing m with
  | nil => rfl
  | cons item items ih =>
      rw [List.cons_append, interpreter.performProgram_cons, interpreter.performProgram_cons]
      cases interpreter.perform m item with
      | none => rfl
      | some loaded =>
          simp only [Option.bind_some]
          obtain ⟨next, _ | error⟩ := loaded
          · exact ih next
          · rfl

/-- The items of a program are done and its fault is reported, or one of them fails. -/
theorem performProgram_cases {m : Machine} {p : Program} {loaded : Loaded}
    (performed : interpreter.performProgram m p = some loaded) :
    interpreter.performProgram m ⟨p.items, none⟩ = some ⟨loaded.machine, none⟩ ∧
        loaded.error = p.blame.map .ofBlame ∨
      interpreter.performProgram m ⟨p.items, none⟩ = some loaded ∧ loaded.error.isSome := by
  unfold Machine.Interpreter.performProgram at performed ⊢
  dsimp only
  obtain ⟨⟨last, _ | error⟩, reached, rfl⟩ := Option.map_eq_some_iff.mp performed
  · exact .inl ⟨by rw [reached]; rfl, rfl⟩
  · exact .inr ⟨by rw [reached]; rfl, rfl⟩

/-- The items that end in the first source are done, and then the program of what they leave with
the second source, unless one of them fails. -/
theorem load_joined_eq (m : Machine) {first : String} (second : String)
    {left : List SourceToken} (decomposes : Decomposes (scan first) (program (scan first)) left) :
    interpreter.load m (first ++ "\n" ++ second) =
      (interpreter.performProgram m ⟨(program (scan first)).items, none⟩).bind fun loaded =>
        match loaded.error with
        | none =>
          interpreter.performProgram loaded.machine
            (program (left ++ (scan second).map (.lowered (1 + lineEnds first))))
        | some _ => some loaded := by
  have ordered := scan_lines (first ++ "\n" ++ second)
  rw [scan_joined] at ordered
  rw [interpreter.load_eq, scan_joined,
    program_append decomposes.items (apart_joined first second) ordered, performProgram_append]

/-- How a load of two joined sources is given by the load of the first: if that is done, what
follows on the next lines is loaded as it would be alone, with errors further down by the lines
of the first source; if it stops with an error of the machine, so do the two joined, at the same
place. -/
structure LoadsJoined (load : Machine → String → Option Loaded) (m : Machine)
    (first second : String) (loaded : Loaded) : Prop where
  done : loaded.error = none →
    load m (first ++ "\n" ++ second) =
      (load loaded.machine second).map (.lowered (1 + lineEnds first))
  failed : ∀ error line column, loaded.error = some ⟨.machine error, line, column⟩ →
    load m (first ++ "\n" ++ second) = some loaded

theorem loadsJoined_of_load {m : Machine} {first : String} {loaded : Loaded}
    (ended : interpreter.load m first = some loaded) (second : String) :
    LoadsJoined interpreter.load m first second loaded := by
  obtain ⟨left, decomposes⟩ := decomposes_program (scan_lines first)
  have joined := load_joined_eq interpreter m second decomposes
  rw [interpreter.load_eq] at ended
  rcases performProgram_cases interpreter ended with ⟨done, fault⟩ | ⟨failed, stopped⟩
  · constructor
    · intro none_failed
      have faultless : (program (scan first)).blame = none := by
        rw [none_failed] at fault
        exact Option.map_eq_none_iff.mp fault.symm
      have all_taken : left = [] := by
        have fault := decomposes.fault
        rwa [faultless] at fault
      rw [joined, done, Option.bind_some, all_taken, List.nil_append,
        program_lowered (scan_lines second), performProgram_lowered, interpreter.load_eq]
    · intro error line column stopped
      rw [stopped] at fault
      obtain ⟨blame, _, same⟩ := Option.map_eq_some_iff.mp fault.symm
      cases same
  · constructor
    · intro none_failed
      rw [none_failed] at stopped
      cases stopped
    · intro error line column stopped
      rw [joined, failed, Option.bind_some]
      simp only [stopped]

end Interpreter

/-- **Loading joined sources is loading one after the other.** This holds of the machine, and of
machines with any host functions behind their native words. The joined sources may nest calls
within every bound within which the first source ends. -/
theorem load_joined (first second : String) {bound larger : Nat} (within : bound ≤ larger)
    (m : Machine) (loaded : Loaded) :
    (m.load bound first = some loaded →
      LoadsJoined (fun m source => m.load larger source) m first second loaded) ∧
    ∀ natives : Machine.Natives, natives.OwnOr Machine.NativeFunction.Steady →
      (natives.interpret bound).load m first = some loaded →
      LoadsJoined (natives.interpret larger).load m first second loaded := by
  have joined : ∀ natives : Machine.Natives, natives.OwnOr Machine.NativeFunction.Steady →
      (natives.interpret bound).load m first = some loaded →
      LoadsJoined (natives.interpret larger).load m first second loaded := by
    intro natives steady ended
    apply loadsJoined_of_load
    exact Machine.load_of_le steady within ended
  constructor
  · intro ended
    rw [← Machine.Natives.load_own]
    apply joined
    · exact fun native => .inl rfl
    · rw [Machine.Natives.load_own]
      exact ended
  · exact joined

/-- A definition and a comment that runs up to the seam, and what stands on the lines below: its
error comes two lines later than it would alone. The definition calls a host function, which nests
deeper than the definition itself. A machine error before the seam stays as it is, although the
source goes on with a comment that only the other source closes. -/
theorem load_joined_of_open_comment :
    let natives := Machine.Natives.withHost 7 fun interpreter m => interpreter m (.run ["1"])
    let m := ((Machine.ofConfig .default .millennium).define "HOST"
      { body := .native ⟨7, .host .noop⟩ }).machine
    let first := ": ONE ( -- n ) HOST ; \\ ( open\n"
    let second := "ONE\n  TWO"
    let failing := "FORGET ONE ( open"
    natives.OwnOr Machine.NativeFunction.Steady ∧
    ∃ last ended stopped, (natives.interpret 0).load m first = some ⟨last, none⟩ ∧
      (natives.interpret 2).load last second = some ended ∧
      ended.error = some ⟨.machine (.undefinedWord "TWO"), 2, 3⟩ ∧
      (natives.interpret 2).load m (first ++ "\n" ++ second) =
        some ⟨ended.machine, some ⟨.machine (.undefinedWord "TWO"), 4, 3⟩⟩ ∧
      (natives.interpret 0).load m failing = some stopped ∧
      stopped.error = some ⟨.machine (.unknownWord "ONE"), 1, 8⟩ ∧
      (natives.interpret 2).load m (failing ++ "\n" ++ "closed )") = some stopped := by
  intro natives m first second failing
  have steady : natives.OwnOr Machine.NativeFunction.Steady :=
    Machine.Natives.ownOr_withHost (Machine.NativeFunction.respects_invoke _) 7
  have first_ends : ((natives.interpret 0).load m first).map Loaded.error = some none := by
    decide +kernel
  have second_ends : (((natives.interpret 0).load m first).bind fun loaded =>
      (natives.interpret 2).load loaded.machine second).map Loaded.error =
      some (some ⟨.machine (.undefinedWord "TWO"), 2, 3⟩) := by
    decide +kernel
  have failing_ends : ((natives.interpret 0).load m failing).map Loaded.error =
      some (some ⟨.machine (.unknownWord "ONE"), 1, 8⟩) := by
    decide +kernel
  obtain ⟨⟨last, _⟩, loaded, rfl⟩ := Option.map_eq_some_iff.mp first_ends
  rw [loaded, Option.bind_some] at second_ends
  obtain ⟨ended, reached, error⟩ := Option.map_eq_some_iff.mp second_ends
  obtain ⟨stopped, failed, cause⟩ := Option.map_eq_some_iff.mp failing_ends
  have joins := fun first second loaded =>
    (load_joined first second (Nat.zero_le 2) m loaded).2 natives steady
  have joined := (joins first second ⟨last, none⟩ loaded).done rfl
  have lines : 1 + lineEnds first = 2 := by decide +kernel
  rw [reached, lines] at joined
  refine ⟨steady, last, ended, stopped, loaded, reached, error, ?_, failed, cause, ?_⟩
  · rw [joined, Option.map_some, Loaded.lowered, error]
    rfl
  · exact (joins failing "closed )" stopped failed).failed _ _ _ cause

end Source

end WordMachine
