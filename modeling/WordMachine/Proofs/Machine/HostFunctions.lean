import WordMachine.Proofs.Machine.Simulation

/-! # Host functions that keep a relation

A host may put any function behind a native word. Such a function keeps a relation between
machines if it follows itself on related machines, whatever interpreters it is given, as long as
these follow each other. A function that is put together from calls and operations that keep the
relation keeps it too. Where every native word is the machine's own or keeps the relation,
related machines end alike what is asked of them (`Machine.Simulation.interpret`).
-/

namespace WordMachine

/-- Bodies are paired by equality if they are equal. -/
theorem Body.paired_eq_iff {body body' : Body} : body.Paired Eq body' ↔ body = body' := by
  cases body <;> cases body' <;> simp [Body.Paired]

namespace Machine

theorem Invocation.admitted_eq (invocation : Invocation) : invocation.Admitted Eq := by
  cases invocation with
  | executeBody body => exact Body.paired_eq_iff.mpr rfl
  | run | dispatch | execute => exact trivial

namespace NativeFunction

/-- A function keeps a relation between machines: on related machines, and with interpreters of
which the second follows the first, it ends alike or with an error that is excused. -/
def Respects (excuse : Error → Prop) (R : Machine → Machine → Prop) (f : NativeFunction) : Prop :=
  FunctionsFollow Eq excuse R f f

variable {excuse : Error → Prop} {R : Machine → Machine → Prop}

/-- Asking something of the machine. -/
theorem respects_invoke (invocation : Invocation) :
    Respects excuse R fun interpreter m => interpreter m invocation := by
  intro interpreter interpreter' followed m m' related
  exact followed related invocation invocation.admitted_eq

/-- An operation that always ends. -/
theorem respects_of_operation {f : Machine → Outcome}
    (kept : ∀ {m m'}, R m m' → FollowsNow excuse R (f m) (f m')) :
    Respects excuse R fun _ m => some (f m) := by
  intro interpreter interpreter' followed m m' related
  exact (kept related).follows

/-- One function after another, unless the first fails. -/
theorem Respects.andThen {f g : NativeFunction} (first : f.Respects excuse R)
    (second : g.Respects excuse R) :
    Respects excuse R fun interpreter m =>
      (f interpreter m).bind fun o => o.andThen (g interpreter) := by
  intro interpreter interpreter' followed m m' related
  exact (first followed related).bind fun continued => second followed continued

/-- A function that goes on also after an error, and may look at it. No error is excused then:
the second machine need not meet it. -/
theorem Respects.handle {f : NativeFunction} {g : Option Error → NativeFunction}
    (first : f.Respects (fun _ => False) R)
    (second : ∀ error, (g error).Respects (fun _ => False) R) :
    Respects (fun _ => False) R fun interpreter m =>
      (f interpreter m).bind fun o => g o.error interpreter o.machine := by
  intro interpreter interpreter' followed m m' related final ended
  obtain ⟨o, reached, after⟩ := Option.bind_eq_some_iff.mp ended
  obtain ⟨o', reached', alike⟩ := (first followed related).exists_endAlike reached
  simp only [reached', Option.bind_some, alike.error]
  exact second o.error followed alike.machine final after

end NativeFunction

/-- Every native word acts as its action says, or the function behind it has a property. -/
def Natives.OwnOr (property : NativeFunction → Prop) (natives : Natives) : Prop :=
  ∀ native, natives native = Natives.own native ∨ property (natives native)

/-- The machine's own native words, with a host function behind those of one identity. -/
def Natives.withHost (identity : Nat) (f : NativeFunction) : Natives := fun native =>
  if native.identity = identity then f else Natives.own native

theorem Natives.ownOr_withHost {property : NativeFunction → Prop} {f : NativeFunction}
    (holds : property f) (identity : Nat) : (Natives.withHost identity f).OwnOr property := by
  intro native
  unfold withHost
  split
  · exact .inr holds
  · exact .inl rfl

variable {excuse : Error → Prop} {R : Machine → Machine → Prop}

namespace Simulation

variable (simulation : Simulation (fun _ => True) excuse R)
  (same : ∀ {m m'}, R m m' → m'.dictionary = m.dictionary)

include simulation same

/-- Native words that are the machine's own or keep a relation between machines with equal
dictionaries keep it in step. -/
theorem lockstep_of_host {natives : Natives}
    (respects : natives.OwnOr (NativeFunction.Respects excuse R)) :
    Lockstep Eq excuse R natives natives where
  toKeptBySteps := simulation.toKeptBySteps
  functions := by
    intro native native' paired
    cases paired
    rcases respects native with own | kept
    · rw [own]
      exact simulation.functionsFollow_own Eq rfl trivial
    · exact kept
  resolved := by
    intro m m' related name body dictionary found
    obtain ⟨body', dictionary', found', -, -, counted⟩ :=
      simulation.resolved related name body dictionary found
    have agree := found'
    rw [same related, found] at agree
    cases agree
    exact ⟨body, dictionary, found', Body.paired_eq_iff.mpr rfl, counted⟩

/-- Related machines end alike what is asked of them. -/
theorem interpret {natives : Natives}
    (respects : natives.OwnOr (NativeFunction.Respects excuse R)) (bound : Nat) {m m' : Machine}
    (related : R m m') (invocation : Invocation) :
    Follows excuse R (natives.interpret bound m invocation)
      (natives.interpret bound m' invocation) :=
  (simulation.lockstep_of_host same respects).interpret bound related invocation
    invocation.admitted_eq

/-- Related machines end loads alike. -/
theorem load_of_host {natives : Natives}
    (respects : natives.OwnOr (NativeFunction.Respects excuse R)) (bound : Nat) {m m' : Machine}
    (related : R m m') (source : String) :
    LoadFollows excuse R ((natives.interpret bound).load m source)
      ((natives.interpret bound).load m' source) :=
  ((simulation.lockstep_of_host same respects).interpret bound).load simulation.toKeptBySteps
    related source

end Simulation

/-! ## Families of relations

A function that puts another machine in place of the one that it got leads from one relation of a
family to another. It keeps the union of the family.
-/

theorem FollowsNow.mono {S : Machine → Machine → Prop} (wider : ∀ {m m'}, R m m' → S m m')
    {first second : Outcome} (follows : FollowsNow excuse R first second) :
    FollowsNow excuse S first second :=
  follows.imp_right fun alike => ⟨alike.error, wider alike.machine⟩

/-- The union of a family of relations that primitive operations keep is kept by them. -/
theorem simulation_exists {ι : Type} {admits : Action → Prop} {R : ι → Machine → Machine → Prop}
    (simulation : ∀ i, Simulation admits excuse (R i)) :
    Simulation admits excuse fun m m' => ∃ i, R i m m' where
  number := by
    intro m m' ⟨i, related⟩ x
    exact ((simulation i).number related x).mono fun kept => ⟨i, kept⟩
  push := by
    intro m m' ⟨i, related⟩ v admitted
    exact ((simulation i).push related v admitted).mono fun kept => ⟨i, kept⟩
  count := by
    intro m m' ⟨i, related⟩
    exact (simulation i).count related
  core := by
    intro m m' ⟨i, related⟩ word
    exact ((simulation i).core related word).mono fun kept => ⟨i, kept⟩
  console := by
    intro m m' ⟨i, related⟩ word
    exact ((simulation i).console related word).mono fun kept => ⟨i, kept⟩
  define := by
    intro m m' ⟨i, related⟩ name effect tokens
    exact ((simulation i).define related name effect tokens).mono fun kept => ⟨i, kept⟩
  forget := by
    intro m m' ⟨i, related⟩ name
    exact ((simulation i).forget related name).mono fun kept => ⟨i, kept⟩
  record := by
    intro m m' ⟨i, related⟩ token
    exact ⟨i, (simulation i).record related token⟩
  enter := by
    intro m m' ⟨i, related⟩
    exact ⟨i, (simulation i).enter related⟩
  leave := by
    intro m m' ⟨i, related⟩
    exact ⟨i, (simulation i).leave related⟩
  unresolved := by
    intro m m' ⟨i, related⟩ name missing
    exact (simulation i).unresolved related name missing
  resolved := by
    intro m m' ⟨i, related⟩ name body dictionary found
    obtain ⟨body', dictionary', found', alike, admitted, counted⟩ :=
      (simulation i).resolved related name body dictionary found
    exact ⟨body', dictionary', found', alike, admitted, i, counted⟩

end Machine

end WordMachine
