import WordMachine.Proofs.Dictionary
import WordMachine.Proofs.Source.Grammar

/-! # What a load does

A load executes the items that the grammar finds in its source, whatever the machine does
with them, and stops at the first that fails. What is left without an item is reported once
all items were executed. So it is for every interpreter of what items ask, whatever functions
are behind the native words.
-/

namespace WordMachine

namespace Source

open Machine (Interpreter)

/-! ## The execution of items -/

/-- What an item does to a machine; none if the interpreter does not end its token. -/
def Item.execute (interpreter : Interpreter) (m : Machine) : Item → Option Outcome
  | .comment => some m.done
  | .definition name effect body => some (m.define name.text { effect, body := .compiled body })
  | .forget name => some (m.forget name.text)
  | .dispatch token => interpreter m (.dispatch token.text)

/-- The token at which an item fails: the name of a definition or a forget, or the token that
is dispatched. -/
def Item.position : Item → Option SourceToken
  | .comment => none
  | .definition name _ _ => some name
  | .forget name => some name
  | .dispatch token => some token

/-- Items are executed in order, and none of them fails. -/
inductive Completes (interpreter : Interpreter) : Machine → List Item → Machine → Prop where
  | none (m : Machine) : Completes interpreter m [] m
  | item {m next last : Machine} {item : Item} {items : List Item} :
      item.execute interpreter m = some next.done → Completes interpreter next items last →
      Completes interpreter m (item :: items) last

/-- How the execution of a program ends: with its fault, if it has one, after all items, or
with the error of the first item that fails, at the token of that item. -/
inductive Executes (interpreter : Interpreter) (m : Machine) (p : Program) : Loaded → Prop where
  | finished {last : Machine} : Completes interpreter m p.items last →
      Executes interpreter m p ⟨last, p.blame.map .ofBlame⟩
  | stopped {before after : List Item} {item : Item} {reached last : Machine} {error : Error}
      {token : SourceToken} : p.items = before ++ item :: after →
      Completes interpreter m before reached →
      item.execute interpreter reached = some (last.failed error) →
      item.position = some token → Executes interpreter m p ⟨last, some (.ofError token error)⟩

theorem map_ofOutcome_eq_some_iff (ended : Option Outcome) (token : SourceToken)
    {loaded : Loaded} :
    ended.map (Loaded.ofOutcome token) = some loaded ↔
      (∃ next, ended = some (Machine.done next) ∧ loaded = ⟨next, none⟩) ∨
        ∃ last error position, ended = some (Machine.failed last error) ∧
          some token = some position ∧ loaded = ⟨last, some (.ofError position error)⟩ := by
  constructor
  · intro ends
    obtain ⟨⟨next, _ | error⟩, rfl, rfl⟩ := Option.map_eq_some_iff.mp ends
    · exact .inl ⟨next, rfl, rfl⟩
    · exact .inr ⟨next, error, token, rfl, rfl, rfl⟩
  · rintro (⟨next, rfl, rfl⟩ | ⟨last, error, _, rfl, ⟨⟩, rfl⟩) <;> rfl

variable {interpreter : Interpreter}

/-- An item is done or fails at its token. -/
theorem perform_eq_some_iff {m : Machine} {item : Item} {loaded : Loaded} :
    interpreter.perform m item = some loaded ↔
      (∃ next, item.execute interpreter m = some next.done ∧ loaded = ⟨next, none⟩) ∨
        ∃ last error token, item.execute interpreter m = some (last.failed error) ∧
          item.position = some token ∧ loaded = ⟨last, some (.ofError token error)⟩ := by
  cases item with
  | comment =>
      constructor
      · rintro ⟨⟩
        exact .inl ⟨m, rfl, rfl⟩
      · rintro (⟨next, ⟨⟩, rfl⟩ | ⟨_, _, _, ⟨⟩, _⟩)
        rfl
  | definition name effect body => exact map_ofOutcome_eq_some_iff (some _) name
  | forget name => exact map_ofOutcome_eq_some_iff (some _) name
  | dispatch token => exact map_ofOutcome_eq_some_iff _ token

/-- The execution of a program with a first item: the item is done and the rest is executed, or
the item fails. -/
theorem executes_cons_iff {m : Machine} {item : Item} {items : List Item}
    {blame : Option Blame} {loaded : Loaded} :
    Executes interpreter m ⟨item :: items, blame⟩ loaded ↔
      (∃ next, item.execute interpreter m = some next.done ∧
        Executes interpreter next ⟨items, blame⟩ loaded) ∨
        ∃ last error token, item.execute interpreter m = some (last.failed error) ∧
          item.position = some token ∧ loaded = ⟨last, some (.ofError token error)⟩ := by
  constructor
  · intro executes
    cases executes with
    | finished completes =>
        cases completes with
        | item executed rest => exact .inl ⟨_, executed, .finished rest⟩
    | @stopped before _ _ _ _ _ _ split completes failed position =>
        -- The failing item is the first one, or it fails after the first one was done.
        cases before with
        | nil =>
            cases completes
            cases split
            exact .inr ⟨_, _, _, failed, position, rfl⟩
        | cons first before =>
            obtain ⟨rfl, rest⟩ := List.cons.inj split
            cases completes with
            | item executed completes =>
                exact .inl ⟨_, executed, .stopped rest completes failed position⟩
  · rintro (⟨next, executed, executes⟩ | ⟨last, error, token, failed, position, rfl⟩)
    · cases executes with
      | finished completes => exact .finished (.item executed completes)
      | stopped split completes failed position =>
          exact .stopped (congrArg (item :: ·) split) (.item executed completes) failed position
    · exact @Executes.stopped _ _ _ [] items _ _ _ _ _ rfl (.none m) failed position

/-- A program is performed as its items are executed, by induction on the items. -/
theorem performProgram_iff_executes {m : Machine} {p : Program} {loaded : Loaded} :
    interpreter.performProgram m p = some loaded ↔ Executes interpreter m p loaded := by
  obtain ⟨items, blame⟩ := p
  induction items generalizing m with
  | nil =>
      constructor
      · rintro ⟨⟩
        exact .finished (.none m)
      · rintro (⟨⟨⟩⟩ | ⟨split, _⟩)
        · rfl
        · exact absurd split (by simp)
  | cons item items ih =>
      rw [interpreter.performProgram_cons, Option.bind_eq_some_iff, executes_cons_iff]
      constructor
      · rintro ⟨reached, performed, continued⟩
        rcases perform_eq_some_iff.mp performed with
          ⟨next, executed, rfl⟩ | ⟨last, error, token, failed, position, rfl⟩
        · exact .inl ⟨next, executed, ih.mp continued⟩
        · cases continued
          exact .inr ⟨last, error, token, failed, position, rfl⟩
      · rintro (⟨next, executed, executes⟩ | failed)
        · exact ⟨⟨next, none⟩, perform_eq_some_iff.mpr (.inl ⟨next, executed, rfl⟩),
            ih.mpr executes⟩
        · obtain ⟨last, error, token, _, _, rfl⟩ := id failed
          exact ⟨_, perform_eq_some_iff.mpr (.inr failed), rfl⟩

/-! ## The words that are defined -/

/-- The machine has an unprotected word of the category `USER` under a name, with a body of
tokens and an effect. -/
def HasUserWord (m : Machine) (name : String) (effect : String) (body : List String) : Prop :=
  ∃ w, m.dictionary.find? name = some w ∧ w.body = .compiled body ∧ w.effect = effect ∧
    w.category = .user ∧ w.isProtected = false

/-- A definition that does not fail defines its name by its body and its effect. -/
theorem hasUserWord_of_execute {m next : Machine} {name : SourceToken}
    {effect : Option String} {body : List String}
    (executed : (Item.definition name effect body).execute interpreter m = some next.done) :
    HasUserWord next name.text (effect.getD defaultEffect) body := by
  have defined := Option.some.inj executed
  unfold Machine.define at defined
  split at defined
  · next dictionary stored =>
      cases defined
      obtain ⟨_, _, rfl⟩ := Dictionary.define_ok_iff.mp stored
      refine ⟨_, by rw [Dictionary.find?_afterDefine, if_pos rfl], ?_⟩
      unfold Dictionary.wordDefined
      split <;> exact ⟨rfl, rfl, rfl, rfl⟩
  · cases defined

/-- **A load executes what the grammar finds.** The tokens of every source decompose in one way,
whatever machine it is loaded into. A load ends as the execution of the items does, and does
not end if that does not, also with any functions of a host behind native words. A definition that
does not fail leaves an unprotected user word with its body and its effect. -/
theorem load_iff_executes (source : String) :
    ∃ p left, Decomposes (scan source) p left ∧
      (∀ p' left', Decomposes (scan source) p' left' → p' = p ∧ left' = left) ∧
      (∀ bound m loaded,
        m.load bound source = some loaded ↔ Executes (Machine.interpreter bound) m p loaded) ∧
      (∀ interpreter m loaded,
        Interpreter.load interpreter m source = some loaded ↔ Executes interpreter m p loaded) ∧
      ∀ interpreter m next name effect body,
        (Item.definition name effect body).execute interpreter m = some next.done →
        HasUserWord next name.text (effect.getD defaultEffect) body := by
  obtain ⟨left, decomposes⟩ := decomposes_program (scan_lines source)
  have loads : ∀ (interpreter : Interpreter) (m : Machine) (loaded : Loaded),
      interpreter.load m source = some loaded ↔
        Executes interpreter m (program (scan source)) loaded := by
    intro interpreter m loaded
    rw [interpreter.load_eq]
    exact performProgram_iff_executes
  refine ⟨program (scan source), left, decomposes, ?_, ?_, loads, ?_⟩
  · exact fun p' left' decomposes' => decomposes.unique decomposes'
  · intro bound m loaded
    rw [← Machine.load_interpreter]
    exact loads _ m loaded
  · exact fun _ _ _ _ _ _ executed => hasUserWord_of_execute executed

/-- The group directly after a name is its effect, any other is a comment. -/
example : program (scan ": TWICE ( n -- ) 2 \\ two ;\n* ( times) ; FORGET : : ;") =
    ⟨[.definition ⟨"TWICE", 1, 3⟩ (some "( n -- )") ["2", "*"], .forget ⟨":", 2, 21⟩],
      some ⟨.expectedName, ⟨";", 2, 25⟩⟩⟩ := by
  decide +kernel

end Source

end WordMachine
