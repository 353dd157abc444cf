import WordMachine.Proofs.Source.Load

/-! # Sources without marks

The tokens of a source are the fields of its text: a scan finds line by line what splitting at
blanks finds at once (`Source.map_text_scan`). A source that holds none of the marks of comments,
definitions and forgets is a list of tokens to dispatch, so loading it is running it, except
that a load says at which token it stopped.
-/

namespace WordMachine

/-! ## Fields -/

namespace Text

/-- Characters that are not blank join the run that starts the text after them. -/
theorem runAndFields_append {run : List Char} (solid : ∀ c ∈ run, isBlank c = false)
    (rest : List Char) :
    runAndFields (run ++ rest) = (run ++ (runAndFields rest).1, (runAndFields rest).2) := by
  induction run with
  | nil => rfl
  | cons c run ih =>
      obtain ⟨here, others⟩ := List.forall_mem_cons.mp solid
      have after := ih others
      unfold runAndFields at after ⊢
      rw [List.cons_append, List.foldr_cons, after]
      simp [here]

theorem fields_of_solid {run : List Char} (solid : ∀ c ∈ run, isBlank c = false) :
    fields run = closeField run [] := by
  have split := runAndFields_append solid []
  rw [List.append_nil] at split
  rw [fields, split]
  simp [runAndFields]

/-- A blank ends the field before it. -/
theorem fields_append_blank {run : List Char} (solid : ∀ c ∈ run, isBlank c = false) {c : Char}
    (blank : isBlank c = true) (rest : List Char) :
    fields (run ++ c :: rest) = closeField run (fields rest) := by
  have after : runAndFields (c :: rest) = ([], fields rest) := by
    unfold fields runAndFields
    rw [List.foldr_cons]
    simp [blank]
  rw [fields, runAndFields_append solid, after, List.append_nil]

theorem closeField_append (run : List Char) (fields : List (List Char)) :
    closeField run fields = closeField run [] ++ fields := by
  unfold closeField
  split <;> rfl

end Text

namespace Source

namespace Scanner

/-- The characters of the token in progress. -/
def pending (s : Scanner) : List Char :=
  match s.current with
  | none => []
  | some (_, run) => run.reverse

/-- A token in progress has a character, and none of its characters is blank. -/
structure Solid (s : Scanner) : Prop where
  nonempty : ∀ column, s.current ≠ some (column, [])
  solid : ∀ c ∈ s.pending, Text.isBlank c = false

theorem solid_start : start.Solid :=
  ⟨fun _ => nofun, fun _ member => nomatch member⟩

/-- The texts of the tokens that were found, in order. -/
def texts (tokens : List SourceToken) : List String :=
  tokens.reverse.map SourceToken.text

/-- The token in progress ends as a field. -/
theorem texts_close {s : Scanner} (solid : s.Solid) :
    texts s.close = texts s.found ++ (Text.closeField s.pending []).map String.ofList := by
  obtain ⟨line, column, current, found⟩ := s
  cases current with
  | none => simp [texts, close, pending, Text.closeField]
  | some run =>
      obtain ⟨start, run⟩ := run
      have nonempty : run.reverse ≠ [] := by
        intro empty
        rw [List.reverse_eq_nil_iff] at empty
        exact solid.nonempty start (by rw [empty])
      simp [texts, close, pending, Text.closeField, nonempty]

theorem step_of_blank (s : Scanner) {c : Char} (blank : Text.isBlank c = true) :
    (s.step c).current = none ∧ (s.step c).found = s.close := by
  unfold step
  rw [if_pos blank]
  split <;> exact ⟨rfl, rfl⟩

theorem step_of_solid (s : Scanner) {c : Char} (here : Text.isBlank c = false) :
    (s.step c).pending = s.pending ++ [c] ∧ (s.step c).found = s.found := by
  have inLine : c ≠ '\n' := by
    rintro rfl
    cases here
  have notBlank : ¬Text.isBlank c = true := by
    rw [here]
    exact Bool.false_ne_true
  obtain ⟨line, column, current, found⟩ := s
  unfold step
  rw [if_neg inLine, if_neg notBlank]
  cases current with
  | none => exact ⟨rfl, rfl⟩
  | some run => exact ⟨List.reverse_cons, rfl⟩

theorem Solid.step {s : Scanner} (solid : s.Solid) (c : Char) : (s.step c).Solid := by
  cases here : Text.isBlank c with
  | true =>
      obtain ⟨ended, -⟩ := s.step_of_blank here
      constructor
      · intro column
        rw [ended]
        nofun
      · rw [pending, ended]
        exact fun _ member => nomatch member
  | false =>
      obtain ⟨grown, -⟩ := s.step_of_solid here
      constructor
      · intro column empty
        rw [pending, empty] at grown
        exact List.concat_ne_nil c s.pending (by simpa using grown.symm)
      · rw [grown, List.forall_mem_append, List.forall_mem_singleton]
        exact ⟨solid.solid, here⟩

/-- A scan finds the fields of what is ahead, the token in progress included, by induction on the
characters ahead. -/
theorem texts_close_foldl {s : Scanner} (solid : s.Solid) (cs : List Char) :
    texts (cs.foldl step s).close =
      texts s.found ++ (Text.fields (s.pending ++ cs)).map String.ofList := by
  induction cs generalizing s with
  | nil =>
      rw [List.foldl_nil, List.append_nil, Text.fields_of_solid solid.solid]
      exact texts_close solid
  | cons c rest ih =>
      rw [List.foldl_cons, ih (solid.step c)]
      cases here : Text.isBlank c with
      | true =>
          obtain ⟨ended, found⟩ := s.step_of_blank here
          have cleared : (s.step c).pending = [] := by rw [pending, ended]
          rw [found, cleared, List.nil_append, texts_close solid,
            Text.fields_append_blank solid.solid here,
            Text.closeField_append s.pending (Text.fields rest), List.map_append,
            List.append_assoc]
      | false =>
          obtain ⟨grown, found⟩ := s.step_of_solid here
          rw [found, grown, List.append_assoc]
          rfl

end Scanner

/-- The tokens of a source are the fields of its text. -/
theorem map_text_scan (source : String) :
    (scan source).map SourceToken.text = Text.words source :=
  Scanner.texts_close_foldl Scanner.solid_start source.toList

/-! ## Tokens to dispatch -/

/-- A token that is dispatched: it is neither a mark nor a keyword. -/
def IsDispatched (token : SourceToken) : Prop :=
  Plain token ∧ token.text ≠ "FORGET"

/-- Tokens without marks are all dispatched. -/
theorem program_of_dispatched {tokens : List SourceToken}
    (dispatched : ∀ token ∈ tokens, IsDispatched token) :
    program tokens = ⟨tokens.map .dispatch, none⟩ := by
  have items : ItemsTo tokens (tokens.map .dispatch) [] := by
    induction tokens with
    | nil => exact .none []
    | cons token rest ih =>
        obtain ⟨⟨plain, other⟩, others⟩ := List.forall_mem_cons.mp dispatched
        exact .item (.dispatch plain other) (ih others)
  have decomposes : Decomposes tokens ⟨tokens.map .dispatch, none⟩ [] := by
    refine ⟨items, fun item rest read => ?_, rfl⟩
    cases read.leftOf
  exact takeItems_of_decomposes decomposes le_rfl

section Interpreter

variable (interpreter : Machine.Interpreter)

/-- Tokens are dispatched in order, and one of them is the first that fails. -/
inductive FailsAt : Machine → List SourceToken → SourceToken → Machine → Error → Prop where
  | first {m last : Machine} {token : SourceToken} {rest : List SourceToken} {error : Error} :
      interpreter m (.dispatch token.text) = some (last.failed error) →
      FailsAt m (token :: rest) token last error
  | later {m next last : Machine} {done token : SourceToken} {rest : List SourceToken}
      {error : Error} : interpreter m (.dispatch done.text) = some next.done →
      FailsAt next rest token last error → FailsAt m (done :: rest) token last error

/-- How a load ends where a run of the same tokens does: neither ends, both are done, or both fail
with the same error, which the load reports at the first token that fails. -/
inductive EndsAsRun (m : Machine) (tokens : List SourceToken) :
    Option Outcome → Option Loaded → Prop where
  | unended : EndsAsRun m tokens none none
  | done (last : Machine) : EndsAsRun m tokens (some last.done) (some ⟨last, none⟩)
  | failed {last : Machine} {token : SourceToken} {error : Error} :
      FailsAt interpreter m tokens token last error →
      EndsAsRun m tokens (some (last.failed error)) (some ⟨last, some (.ofError token error)⟩)

variable {interpreter}

theorem EndsAsRun.cons {m next : Machine} {done : SourceToken} {rest : List SourceToken}
    (dispatched : interpreter m (.dispatch done.text) = some next.done) {ran : Option Outcome}
    {loaded : Option Loaded} (ends : EndsAsRun interpreter next rest ran loaded) :
    EndsAsRun interpreter m (done :: rest) ran loaded := by
  cases ends with
  | unended => exact .unended
  | done last => exact .done last
  | failed fails => exact .failed (.later dispatched fails)

end Interpreter

/-- Tokens that are items to dispatch are performed as they are run, by induction on the
tokens. -/
theorem endsAsRun_dispatches (natives : Machine.Natives) (bound : Nat) (m : Machine)
    (tokens : List SourceToken) :
    EndsAsRun (natives.interpret bound) m tokens
      (natives.interpret bound m (.run (tokens.map SourceToken.text)))
      ((natives.interpret bound).performProgram m ⟨tokens.map .dispatch, none⟩) := by
  induction tokens generalizing m with
  | nil => exact .done m
  | cons token rest ih =>
      have ran : natives.interpret bound m (.run ((token :: rest).map SourceToken.text)) =
          (natives.interpret bound m (.dispatch token.text)).bind fun o => o.andThen fun next =>
            natives.interpret bound next (.run (rest.map SourceToken.text)) := rfl
      rw [ran, List.map_cons, Machine.Interpreter.performProgram_cons, Machine.Interpreter.perform]
      cases dispatched : natives.interpret bound m (.dispatch token.text) with
      | none => exact .unended
      | some o =>
          obtain ⟨next, _ | error⟩ := o
          · exact (ih next).cons dispatched
          · exact .failed (.first dispatched)

/-- **Loading text without marks is running it.** The tokens of every source are the fields of its
text. If none of them marks a comment, a definition or a forget, a load ends as a run of the
text does, also with any host functions behind the native words. -/
theorem load_endsAsRun (source : String) :
    (scan source).map SourceToken.text = Text.words source ∧
      ((∀ text ∈ Text.words source, text ∉ ["\\", "(", ":", ";", "FORGET"]) → ∀ bound m,
        EndsAsRun (Machine.interpreter bound) m (scan source) (m.run bound source)
            (m.load bound source) ∧
          ∀ natives : Machine.Natives,
            EndsAsRun (natives.interpret bound) m (scan source)
              (natives.interpret bound m (.run (Text.words source)))
              ((natives.interpret bound).load m source)) := by
  have words := map_text_scan source
  refine ⟨words, fun unmarked bound m => ?_⟩
  have dispatched : ∀ token ∈ scan source, IsDispatched token := by
    intro token member
    have other := unmarked token.text (words ▸ List.mem_map_of_mem member)
    simp only [List.mem_cons, List.not_mem_nil, or_false, not_or] at other
    obtain ⟨backslash, opening, colon, semicolon, keyword⟩ := other
    exact ⟨⟨colon, semicolon, opening, backslash⟩, keyword⟩
  have ends : ∀ natives : Machine.Natives,
      EndsAsRun (natives.interpret bound) m (scan source)
        (natives.interpret bound m (.run (Text.words source)))
        ((natives.interpret bound).load m source) := by
    intro natives
    rw [Machine.Interpreter.load_eq, program_of_dispatched dispatched, ← words]
    exact endsAsRun_dispatches natives bound m (scan source)
  constructor
  · have own := ends .own
    rwa [Machine.Natives.interpret_own, Machine.load_interpreter] at own
  · exact ends

/-- Blanks that end no line stand between tokens, and the second line has a token that fails. -/
theorem load_endsAsRun_of_blanks :
    let m := Machine.ofConfig .default .millennium
    let source := "1\r\n2\u0085 \u2028NOPE 3"
    (∀ text ∈ Text.words source, text ∉ ["\\", "(", ":", ";", "FORGET"]) ∧
      ∃ last token, m.run 1 source = some (last.failed (.undefinedWord "NOPE")) ∧
        m.load 1 source = some ⟨last, some (.ofError token (.undefinedWord "NOPE"))⟩ ∧
        FailsAt (Machine.interpreter 1) m (scan source) token last (.undefinedWord "NOPE") ∧
        token.line = 2 ∧ token.column = 5 := by
  intro m source
  have unmarked : ∀ text ∈ Text.words source, text ∉ ["\\", "(", ":", ";", "FORGET"] := by
    decide +kernel
  have run_ends : (m.run 1 source).map Outcome.error =
      some (some (.undefinedWord "NOPE")) := by
    decide +kernel
  have load_ends : (m.load 1 source).map Loaded.error =
      some (some ⟨.machine (.undefinedWord "NOPE"), 2, 5⟩) := by
    decide +kernel
  obtain ⟨⟨last, _⟩, ran, rfl⟩ := Option.map_eq_some_iff.mp run_ends
  have ends := ((load_endsAsRun source).2 unmarked 1 m).1
  rw [ran] at ends
  generalize m.load 1 source = loaded at ends load_ends ⊢
  cases ends with
  | @failed _ token _ fails =>
      obtain ⟨-, line, column⟩ := LoadError.mk.inj (Option.some.inj (Option.some.inj load_ends))
      exact ⟨unmarked, last, token, ran, rfl, fails, line, column⟩

end Source

end WordMachine
