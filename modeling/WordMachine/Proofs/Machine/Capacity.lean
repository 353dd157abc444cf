import WordMachine.Proofs.Machine.HostFunctions
import WordMachine.Proofs.StackRelation

/-! # Room on the data stack

A machine that has more room on its data stack does what the machine with less room does, as long
as that one does not overflow: it ends alike, also where it fails for another reason, and its
stack holds the same values. Host functions may do anything that does not depend on the room,
as long as they pass on the errors that they meet.
-/

namespace WordMachine

theorem CoreWord.run_depth (s : Stack) :
    CoreWord.depth.run s = StackM.push (.number (Float.ofNat s.depth)) s :=
  rfl

/-- The error of a full stack. -/
def Error.IsOverflow (error : Error) : Prop :=
  ∃ stack limit, error = .stackOverflow stack limit

namespace Stack

/-- The stack with another bound. -/
def widened (s : Stack) (limit : Nat) : Stack :=
  { s with limit }

/-- The second stack is the first with the given bound, which is no smaller. -/
def WidenedTo (limit : Nat) (s s' : Stack) : Prop :=
  s.limit ≤ limit ∧ s' = s.widened limit

/-- With more room, accesses to the top do the same unless a push overflows. -/
theorem keptByAccess_widenedTo (limit : Nat) :
    StackM.KeptByAccess Error.IsOverflow (WidenedTo limit) where
  push v := by
    intro s s' ⟨wider, widened⟩
    subst widened
    unfold StackM.push Stack.push
    by_cases full : s.limit ≤ s.depth
    · rw [if_pos full]
      exact .inl ⟨s.name, s.limit, rfl⟩
    · have room : ¬ (s.widened limit).limit ≤ (s.widened limit).depth := by
        change ¬ limit ≤ s.depth
        omega
      rw [if_neg full, if_neg room]
      exact ⟨_, rfl, wider, rfl⟩
  pop := by
    intro s s' ⟨wider, widened⟩
    subst widened
    unfold StackM.pop Stack.pop
    have items : (s.widened limit).items = s.items := rfl
    rw [items]
    cases s.items with
    | nil => exact .inr ⟨_, rfl, wider, rfl⟩
    | cons v rest => exact ⟨_, rfl, wider, rfl⟩
  peek := by
    intro s s' ⟨wider, widened⟩
    subst widened
    unfold StackM.peek Stack.peek
    have items : (s.widened limit).items = s.items := rfl
    rw [items]
    cases s.items with
    | nil => exact .inr ⟨_, rfl, wider, rfl⟩
    | cons v rest => exact ⟨_, rfl, wider, rfl⟩

/-- Every core word does the same with more room: `DEPTH` counts the values and not the room. -/
theorem relates_coreWord (limit : Nat) (word : CoreWord) :
    StackM.Relates Error.IsOverflow (WidenedTo limit) word.run := by
  have kept := keptByAccess_widenedTo limit
  by_cases depth : word = .depth
  · subst depth
    intro s s' ⟨wider, widened⟩
    have counted : s'.depth = s.depth := by
      rw [widened]
      rfl
    rw [CoreWord.run_depth, CoreWord.run_depth, counted]
    exact kept.push _ ⟨wider, widened⟩
  · by_cases clear : word = .clear
    · subst clear
      intro s s' ⟨wider, widened⟩
      subst widened
      exact ⟨_, rfl, wider, rfl⟩
    · exact kept.coreWord depth clear

/-- Every console word prints the same with more room. -/
theorem relates_consoleText (limit : Nat) (word : ConsoleWord) (names : List String) :
    StackM.Relates Error.IsOverflow (WidenedTo limit) (word.text names) := by
  by_cases printStack : word = .printStack
  · subst printStack
    intro s s' ⟨wider, widened⟩
    subst widened
    exact ⟨_, rfl, wider, rfl⟩
  · exact (keptByAccess_widenedTo limit).consoleText printStack names

end Stack

namespace Machine

/-! ## Machines whose stacks are related -/

section Stacks

variable {excuse : Error → Prop} {S : Stack → Stack → Prop} {R : Machine → Machine → Prop}
  {m m' : Machine} (data : S m.data m'.data)
  (replaced : ∀ {s s'}, S s s' → R { m with data := s } { m' with data := s' })

include data replaced

/-- Machines follow each other where their stacks do. -/
theorem followsNow_onStack {computation : StackM Unit}
    (relates : StackM.Relates excuse S computation) :
    FollowsNow excuse R (m.onStack computation) (m'.onStack computation) := by
  have after := relates data
  unfold onStack
  cases reached : computation m.data with
  | ok _ next =>
      rw [reached] at after
      obtain ⟨next', reached', kept⟩ := after
      rw [reached']
      exact .inr ⟨rfl, replaced kept⟩
  | error error next =>
      rw [reached] at after
      rcases after with excused | ⟨next', reached', kept⟩
      · exact .inl ⟨error, rfl, excused⟩
      · rw [reached']
        exact .inr ⟨rfl, replaced kept⟩

/-- Console words follow each other where their texts do and both machines can write. -/
theorem followsNow_consoleWord {word : ConsoleWord}
    (names : m'.dictionary.names = m.dictionary.names)
    (relates : StackM.Relates excuse S (word.text m.dictionary.names))
    (written : ∀ {m m'}, R m m' → ∀ text, FollowsNow excuse R (m.write text) (m'.write text)) :
    FollowsNow excuse R (word.run m) (word.run m') := by
  have after := relates data
  unfold ConsoleWord.run
  rw [names]
  cases reached : word.text m.dictionary.names m.data with
  | ok text next =>
      rw [reached] at after
      obtain ⟨next', reached', kept⟩ := after
      rw [reached']
      exact written (replaced kept) text
  | error error next =>
      rw [reached] at after
      rcases after with excused | ⟨next', reached', kept⟩
      · exact .inl ⟨error, rfl, excused⟩
      · rw [reached']
        exact .inr ⟨rfl, replaced kept⟩

end Stacks

/-! ## Machines with more room -/

/-- The machine with another bound on its data stack. -/
def widened (m : Machine) (limit : Nat) : Machine :=
  { m with
    config := { m.config with stackDepth := limit }
    data := m.data.widened limit }

/-- The second machine is the first with the given bound, which is no smaller. -/
def WidenedTo (limit : Nat) (m m' : Machine) : Prop :=
  m.data.limit ≤ limit ∧ m' = m.widened limit

namespace WidenedTo

variable {limit : Nat} {m m' : Machine}

theorem data (related : WidenedTo limit m m') : Stack.WidenedTo limit m.data m'.data := by
  obtain ⟨wider, rfl⟩ := related
  exact ⟨wider, rfl⟩

theorem replaced (related : WidenedTo limit m m') {s s' : Stack}
    (widened : Stack.WidenedTo limit s s') :
    WidenedTo limit { m with data := s } { m' with data := s' } := by
  obtain ⟨_, rfl⟩ := related
  obtain ⟨wider, rfl⟩ := widened
  exact ⟨wider, rfl⟩

theorem onStack (related : WidenedTo limit m m') {computation : StackM Unit}
    (relates : StackM.Relates Error.IsOverflow (Stack.WidenedTo limit) computation) :
    FollowsNow Error.IsOverflow (WidenedTo limit) (m.onStack computation)
      (m'.onStack computation) :=
  followsNow_onStack related.data related.replaced relates

theorem push (related : WidenedTo limit m m') (v : Value) :
    FollowsNow Error.IsOverflow (WidenedTo limit) (m.push v) (m'.push v) :=
  related.onStack ((Stack.keptByAccess_widenedTo limit).push v)

theorem write (related : WidenedTo limit m m') (text : String) :
    FollowsNow Error.IsOverflow (WidenedTo limit) (m.write text) (m'.write text) := by
  obtain ⟨wider, rfl⟩ := related
  unfold Machine.write
  have console : (m.widened limit).console = m.console := rfl
  rw [console]
  cases m.console.write text <;> exact .inr ⟨rfl, wider, rfl⟩

theorem define (related : WidenedTo limit m m') (name : String) (definition : Definition) :
    FollowsNow Error.IsOverflow (WidenedTo limit) (m.define name definition)
      (m'.define name definition) := by
  obtain ⟨wider, rfl⟩ := related
  unfold Machine.define
  have dictionary : (m.widened limit).dictionary = m.dictionary := rfl
  have clock : (m.widened limit).clock = m.clock := rfl
  rw [dictionary, clock]
  cases m.dictionary.define m.clock name definition <;> exact .inr ⟨rfl, wider, rfl⟩

theorem forget (related : WidenedTo limit m m') (name : String) :
    FollowsNow Error.IsOverflow (WidenedTo limit) (m.forget name) (m'.forget name) := by
  obtain ⟨wider, rfl⟩ := related
  unfold Machine.forget
  have dictionary : (m.widened limit).dictionary = m.dictionary := rfl
  rw [dictionary]
  cases m.dictionary.forget name <;> exact .inr ⟨rfl, wider, rfl⟩

theorem record (related : WidenedTo limit m m') (token : String) :
    WidenedTo limit (m.record token) (m'.record token) := by
  obtain ⟨wider, rfl⟩ := related
  unfold Machine.record
  have tracing : (m.widened limit).tracing = m.tracing := rfl
  rw [tracing]
  cases m.tracing <;> exact ⟨wider, rfl⟩

end WidenedTo

/-- Machines that differ in the room on their data stacks run alike up to an overflow. -/
theorem simulation_widenedTo (limit : Nat) :
    Simulation (fun _ => True) Error.IsOverflow (WidenedTo limit) where
  number related x := related.push (.number x)
  push related v _ := related.push v
  core related word := related.onStack (Stack.relates_coreWord limit word)
  console related word := by
    apply followsNow_consoleWord related.data related.replaced
    · rw [related.2]
      rfl
    · exact Stack.relates_consoleText limit word _
    · exact WidenedTo.write
  define related name _ _ := related.define name _
  forget related name := related.forget name
  record related token := related.record token
  count := by
    intro m m' related
    rw [related.2]
    rfl
  enter := by
    intro m m' related
    rw [related.2]
    exact ⟨related.1, rfl⟩
  leave := by
    intro m m' related
    rw [related.2]
    exact ⟨related.1, rfl⟩
  unresolved := by
    intro m m' related name missing
    rw [related.2]
    exact missing
  resolved := by
    intro m m' related name body dictionary found
    rw [related.2]
    refine ⟨body, dictionary, found, .refl body, ?_, related.1, rfl⟩
    cases body <;> exact trivial

/-- The second machine is the first with a bound that is no smaller. -/
def Widened (m m' : Machine) : Prop :=
  ∃ limit, WidenedTo limit m m'

/-- A function does not depend on the room on the data stack and passes on errors: on a machine
with more room it does alike, if what it asks of the machine is done alike, and it ends with an
overflow if it meets one. -/
def NativeFunction.RoomBlind (f : NativeFunction) : Prop :=
  f.Respects Error.IsOverflow Widened

/-- An outcome that is no overflow and is followed on a machine with more room comes up there
too. -/
theorem Follows.exists_of_fits {R : Machine → Machine → Prop} {first second : Option Outcome}
    (follows : Follows Error.IsOverflow R first second) {o : Outcome} (ended : first = some o)
    (fits : ∀ stack depth, o.error ≠ some (.stackOverflow stack depth)) :
    ∃ o', second = some o' ∧ EndAlike R o o' := by
  rcases follows o ended with ⟨error, stopped, stack, limit, overflow⟩ | alike
  · rw [overflow] at stopped
    exact (fits stack limit stopped).elim
  · exact alike

/-- **More room changes nothing but overflows.** If a machine runs a source and does not end with
an overflow, it ends alike with more room on its data stack: with the same error or none, and
leaving the same machine apart from the room. So it does with host functions behind its native
words that do not depend on the room and pass on errors; these may put another machine in its
place. -/
theorem run_widened {bound : Nat} {m : Machine} {limit : Nat} (wider : m.data.limit ≤ limit)
    (source : String) {o : Outcome}
    (fits : ∀ stack depth, o.error ≠ some (.stackOverflow stack depth)) :
    (m.run bound source = some o →
      (m.widened limit).run bound source = some ⟨o.machine.widened limit, o.error⟩) ∧
    ∀ natives : Natives, natives.OwnOr NativeFunction.RoomBlind →
      natives.interpret bound m (.run (Text.words source)) = some o →
      ∃ larger, natives.interpret bound (m.widened limit) (.run (Text.words source)) =
        some ⟨o.machine.widened larger, o.error⟩ := by
  constructor
  · intro ended
    have follows := (simulation_widenedTo limit).runTokens bound ⟨wider, rfl⟩ (Text.words source)
    obtain ⟨o', reached, alike⟩ := follows.exists_of_fits ended fits
    rw [run, reached, ← alike.machine.2, ← alike.error]
  · intro natives blind ended
    have simulation : Simulation (fun _ => True) Error.IsOverflow Widened :=
      simulation_exists simulation_widenedTo
    have dictionary : ∀ {m m'}, Widened m m' → m'.dictionary = m.dictionary := by
      intro m m' ⟨limit, _, widened⟩
      rw [widened]
      rfl
    have related : Widened m (m.widened limit) := ⟨limit, wider, rfl⟩
    have follows := simulation.interpret dictionary blind bound related (.run (Text.words source))
    obtain ⟨o', reached, alike⟩ := follows.exists_of_fits ended fits
    obtain ⟨larger, _, last⟩ := alike.machine
    refine ⟨larger, ?_⟩
    rw [reached, ← last, ← alike.error]

/-- A host function that pushes a value, runs tokens and passes on the error of either. -/
def pushThenRun (v : Value) (tokens : List String) : NativeFunction := fun interpreter m =>
  (m.push v).andThen fun next => interpreter next (.run tokens)

theorem roomBlind_pushThenRun (v : Value) (tokens : List String) :
    (pushThenRun v tokens).RoomBlind := by
  have push : NativeFunction.RoomBlind fun _ m => some (m.push v) := by
    apply NativeFunction.respects_of_operation
    intro m m' ⟨limit, related⟩
    exact (related.push v).mono fun kept => ⟨limit, kept⟩
  exact push.andThen (NativeFunction.respects_invoke (.run tokens))

/-- The stack of the machine is full when an unknown word stops it; with more room the word stops
it in the same way. -/
theorem run_widened_of_pushThenRun :
    let natives := Natives.withHost 7 (pushThenRun .nil ["DEPTH"])
    let m := (((ofConfig { Config.default with stackDepth := 2 } .millennium).define "DEPTH"
      { body := .native ⟨0, .core .depth⟩ }).machine.define "HOST"
      { body := .native ⟨7, .host .noop⟩ }).machine
    natives.OwnOr NativeFunction.RoomBlind ∧
      ∃ o larger, natives.interpret 2 m (.run (Text.words "HOST NOPE")) = some o ∧
        o.error = some (.undefinedWord "NOPE") ∧ o.machine.data.depth = 2 ∧
        natives.interpret 2 (m.widened 5) (.run (Text.words "HOST NOPE")) =
          some ⟨o.machine.widened larger, o.error⟩ := by
  intro natives m
  have blind : natives.OwnOr NativeFunction.RoomBlind :=
    Natives.ownOr_withHost (roomBlind_pushThenRun _ _) 7
  have ends : (natives.interpret 2 m (.run (Text.words "HOST NOPE"))).map (fun o =>
      (o.error, o.machine.data.depth)) = some (some (.undefinedWord "NOPE"), 2) := by
    decide +kernel
  obtain ⟨o, ended, values⟩ := Option.map_eq_some_iff.mp ends
  obtain ⟨error, depth⟩ := Prod.mk.inj values
  have fits : ∀ stack depth, o.error ≠ some (.stackOverflow stack depth) := by
    intro stack depth overflow
    rw [error] at overflow
    cases overflow
  have wider : m.data.limit ≤ 5 := by decide +kernel
  obtain ⟨larger, ended'⟩ := (run_widened wider "HOST NOPE" fits).2 natives blind ended
  exact ⟨blind, o, larger, ended, error, depth, ended'⟩

end Machine

end WordMachine
