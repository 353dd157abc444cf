import WordMachine.Proofs.Source.Program

/-! # Running two machines side by side

A relation between machines that every primitive operation keeps is kept by whole runs
and loads, and related machines end them alike. The first machine may also stop with an
error that the comparison excuses; nothing is said about the second one then. Runs with
one bound on the nesting of calls are compared, so the second machine finishes within
the bound of the first.

This holds whatever functions are behind the native words, as long as those of the second
machine follow those of the first (`Machine.Lockstep`). Where native words act as their
actions say, it is enough that a relation is kept by these (`Machine.Simulation`). Such a
relation may also say which native actions can come up: only the values that these push have
to be related.

An invariant of one machine is the case in which both machines are the same.
-/

namespace WordMachine

namespace Body

/-- Bodies act alike if they have the same tokens or the same native action. -/
def ActsLike : Body → Body → Prop
  | .native a, .native b => a.action = b.action
  | .compiled a, .compiled b => a = b
  | _, _ => False

theorem ActsLike.refl (body : Body) : body.ActsLike body := by
  cases body <;> exact rfl

/-- A body is admitted if it is compiled or its action is. -/
def Admitted (admits : Action → Prop) : Body → Prop
  | .native behaviour => admits behaviour.action
  | .compiled _ => True

/-- Bodies are paired if they have the same tokens or their native behaviours are. -/
def Paired (pair : Native → Native → Prop) : Body → Body → Prop
  | .native a, .native b => pair a b
  | .compiled a, .compiled b => a = b
  | _, _ => False

/-- Bodies that act alike are paired by their actions. -/
theorem ActsLike.paired {admits : Action → Prop} {body body' : Body} (alike : body.ActsLike body')
    (admitted : body.Admitted admits) :
    body.Paired (fun a b => a.action = b.action ∧ admits a.action) body' := by
  cases body with
  | native a =>
      cases body' with
      | native b => exact ⟨alike, admitted⟩
      | compiled tokens => exact alike
  | compiled tokens => cases body' <;> exact alike

end Body

namespace Machine

/-- An outcome stops with an error that is excused. -/
def Excused (excuse : Error → Prop) (o : Outcome) : Prop :=
  ∃ error, o.error = some error ∧ excuse error

/-- Two outcomes end alike: with the same error or none, and with related machines. -/
structure EndAlike (R : Machine → Machine → Prop) (first second : Outcome) : Prop where
  error : second.error = first.error
  machine : R first.machine second.machine

/-- The second run follows the first: if the first ends, its end is excused or the second
ends alike. -/
def Follows (excuse : Error → Prop) (R : Machine → Machine → Prop)
    (first second : Option Outcome) : Prop :=
  ∀ o, first = some o → Excused excuse o ∨ ∃ o', second = some o' ∧ EndAlike R o o'

/-- The second of two operations that always end follows the first. -/
def FollowsNow (excuse : Error → Prop) (R : Machine → Machine → Prop) (first second : Outcome) :
    Prop :=
  Excused excuse first ∨ EndAlike R first second

/-- A relation between machines that the steps of runs and loads keep. -/
structure KeptBySteps (excuse : Error → Prop) (R : Machine → Machine → Prop) : Prop where
  number : ∀ {m m'}, R m m' → ∀ x, FollowsNow excuse R (m.push (.number x)) (m'.push (.number x))
  define : ∀ {m m'}, R m m' → ∀ name effect tokens,
    FollowsNow excuse R (m.define name { effect, body := .compiled tokens })
      (m'.define name { effect, body := .compiled tokens })
  forget : ∀ {m m'}, R m m' → ∀ name, FollowsNow excuse R (m.forget name) (m'.forget name)
  record : ∀ {m m'}, R m m' → ∀ token, R (m.record token) (m'.record token)
  enter : ∀ {m m'}, R m m' → R m.enter m'.enter
  leave : ∀ {m m'}, R m m' → R m.leave m'.leave
  unresolved : ∀ {m m'}, R m m' → ∀ name, m.dictionary.resolve? name = none →
    m'.dictionary.resolve? name = none

/-- A relation between machines that every primitive operation keeps, where the words of
related machines have admitted actions. -/
structure Simulation (admits : Action → Prop) (excuse : Error → Prop)
    (R : Machine → Machine → Prop) : Prop extends KeptBySteps excuse R where
  push : ∀ {m m'}, R m m' → ∀ v, admits (.host (.push v)) →
    FollowsNow excuse R (m.push v) (m'.push v)
  count : ∀ {m m'}, R m m' → m'.dictionary.size = m.dictionary.size
  core : ∀ {m m'}, R m m' → ∀ word : CoreWord,
    FollowsNow excuse R (m.onStack word.run) (m'.onStack word.run)
  console : ∀ {m m'}, R m m' → ∀ word : ConsoleWord, FollowsNow excuse R (word.run m) (word.run m')
  resolved : ∀ {m m'}, R m m' → ∀ name body dictionary,
    m.dictionary.resolve? name = some (body, dictionary) →
      ∃ body' dictionary', m'.dictionary.resolve? name = some (body', dictionary') ∧
        body.ActsLike body' ∧ body.Admitted admits ∧
        R { m with dictionary } { m' with dictionary := dictionary' }

variable {admits : Action → Prop} {excuse : Error → Prop} {R : Machine → Machine → Prop}

theorem FollowsNow.follows {first second : Outcome} (follows : FollowsNow excuse R first second) :
    Follows excuse R (some first) (some second) := by
  rintro _ ⟨⟩
  exact follows.imp_right fun alike => ⟨second, rfl, alike⟩

theorem FollowsNow.of_error {m m' : Machine} (related : R m m') (error : Error) :
    FollowsNow excuse R (m.failed error) (m'.failed error) :=
  .inr ⟨rfl, related⟩

/-- Where no error is excused, a run that follows ends alike. -/
theorem Follows.exists_endAlike {first second : Option Outcome}
    (follows : Follows (fun _ => False) R first second) {o : Outcome} (ended : first = some o) :
    ∃ o', second = some o' ∧ EndAlike R o o' := by
  rcases follows o ended with ⟨_, _, excused⟩ | alike
  · exact excused.elim
  · exact alike

/-- Going on from outcomes that follow each other. -/
theorem Follows.bind {first second : Option Outcome} (follows : Follows excuse R first second)
    {next next' : Machine → Option Outcome}
    (continued : ∀ {m m'}, R m m' → Follows excuse R (next m) (next' m')) :
    Follows excuse R (first.bind fun o => o.andThen next)
      (second.bind fun o => o.andThen next') := by
  intro final ended
  obtain ⟨o, reached, after⟩ := Option.bind_eq_some_iff.mp ended
  have end_of_error : ∀ error, o.error = some error → o = final := by
    intro error stopped
    rw [Outcome.andThen, stopped] at after
    exact Option.some.inj after
  rcases follows o reached with ⟨error, stopped, excused⟩ | ⟨o', reached', alike⟩
  · have final_eq := end_of_error error stopped
    subst final_eq
    exact .inl ⟨error, stopped, excused⟩
  · cases stopped : o.error with
    | some error =>
        have final_eq := end_of_error error stopped
        subst final_eq
        refine .inr ⟨o', ?_, alike⟩
        rw [reached', Option.bind_some, Outcome.andThen, alike.error, stopped]
    | none =>
        rw [Outcome.andThen, stopped] at after
        refine (continued alike.machine final after).imp_right ?_
        rintro ⟨final', ended', alike'⟩
        refine ⟨final', ?_, alike'⟩
        rw [reached', Option.bind_some, Outcome.andThen, alike.error, stopped]
        exact ended'

/-- Leaving a compiled body on both sides. -/
theorem Follows.leave {first second : Option Outcome} (kept : KeptBySteps excuse R)
    (follows : Follows excuse R first second) :
    Follows excuse R (first.map fun o => { o with machine := o.machine.leave })
      (second.map fun o => { o with machine := o.machine.leave }) := by
  intro final ended
  obtain ⟨o, reached, rfl⟩ := Option.map_eq_some_iff.mp ended
  refine (follows o reached).imp_right ?_
  rintro ⟨o', reached', alike⟩
  refine ⟨{ o' with machine := o'.machine.leave }, ?_, ?_⟩
  · rw [reached', Option.map_some]
  · exact ⟨alike.error, kept.leave alike.machine⟩

/-! ## Interpreters and native words -/

/-- An invocation is admitted if a native word that it brings along is paired with itself. -/
def Invocation.Admitted (pair : Native → Native → Prop) : Invocation → Prop
  | .executeBody body => body.Paired pair body
  | _ => True

/-- The second interpreter follows the first on related machines. -/
def InterpretersFollow (pair : Native → Native → Prop) (excuse : Error → Prop)
    (R : Machine → Machine → Prop) (interpreter interpreter' : Interpreter) : Prop :=
  ∀ ⦃m m'⦄, R m m' → ∀ invocation : Invocation, invocation.Admitted pair →
    Follows excuse R (interpreter m invocation) (interpreter' m' invocation)

/-- The second function behind a native word follows the first: on related machines, and with
interpreters of which the second follows the first. -/
def FunctionsFollow (pair : Native → Native → Prop) (excuse : Error → Prop)
    (R : Machine → Machine → Prop) (f f' : NativeFunction) : Prop :=
  ∀ ⦃interpreter interpreter'⦄, InterpretersFollow pair excuse R interpreter interpreter' →
    ∀ ⦃m m'⦄, R m m' → Follows excuse R (f interpreter m) (f' interpreter' m')

/-- Two choices of functions behind native words that keep a relation in step: what related
machines resolve is paired, and the functions of a pair follow each other. -/
structure Lockstep (pair : Native → Native → Prop) (excuse : Error → Prop)
    (R : Machine → Machine → Prop) (natives natives' : Natives) : Prop
    extends KeptBySteps excuse R where
  functions : ∀ {native native'}, pair native native' →
    FunctionsFollow pair excuse R (natives native) (natives' native')
  resolved : ∀ {m m'}, R m m' → ∀ name body dictionary,
    m.dictionary.resolve? name = some (body, dictionary) →
      ∃ body' dictionary', m'.dictionary.resolve? name = some (body', dictionary') ∧
        body.Paired pair body' ∧ R { m with dictionary } { m' with dictionary := dictionary' }

namespace Lockstep

variable {pair : Native → Native → Prop} {natives natives' : Natives}
  (lockstep : Lockstep pair excuse R natives natives')

section Interpreters

variable {interpreter interpreter' : Interpreter}
  (followed : InterpretersFollow pair excuse R interpreter interpreter')

include lockstep followed

theorem executeBodyWith {m m' : Machine} (related : R m m') {body body' : Body}
    (paired : body.Paired pair body') :
    Follows excuse R (natives.executeBodyWith interpreter m body)
      (natives'.executeBodyWith interpreter' m' body') := by
  cases body with
  | native native =>
      cases body' with
      | native native' => exact lockstep.functions paired followed related
      | compiled tokens' => exact paired.elim
  | compiled tokens =>
      cases body' with
      | native native' => exact paired.elim
      | compiled tokens' =>
          cases show tokens = tokens' from paired
          have inner := followed (lockstep.enter related) (.run tokens) trivial
          exact inner.leave lockstep.toKeptBySteps

theorem executeWith {m m' : Machine} (related : R m m') (name : String) :
    Follows excuse R (natives.executeWith interpreter m name)
      (natives'.executeWith interpreter' m' name) := by
  unfold Natives.executeWith
  cases resolved : m.dictionary.resolve? name with
  | none =>
      rw [lockstep.unresolved related name resolved]
      exact (FollowsNow.of_error related _).follows
  | some found =>
      obtain ⟨body, dictionary⟩ := found
      obtain ⟨body', dictionary', resolved', paired, counted⟩ :=
        lockstep.resolved related name body dictionary resolved
      rw [resolved']
      exact lockstep.executeBodyWith followed counted paired

theorem dispatchWith {m m' : Machine} (related : R m m') (token : String) :
    Follows excuse R (natives.dispatchWith interpreter m token)
      (natives'.dispatchWith interpreter' m' token) := by
  unfold Natives.dispatchWith
  cases Token.classify token with
  | number x => exact (lockstep.number (lockstep.record related token) _).follows
  | word name => exact lockstep.executeWith followed (lockstep.record related token) name

theorem runTokensWith {m m' : Machine} (related : R m m') (tokens : List String) :
    Follows excuse R (natives.runTokensWith interpreter m tokens)
      (natives'.runTokensWith interpreter' m' tokens) := by
  induction tokens generalizing m m' with
  | nil => exact FollowsNow.follows (.inr ⟨rfl, related⟩)
  | cons token rest ih => exact (lockstep.dispatchWith followed related token).bind ih

theorem interpretWith :
    InterpretersFollow pair excuse R (natives.interpretWith interpreter)
      (natives'.interpretWith interpreter') := by
  intro m m' related invocation admitted
  cases invocation with
  | run tokens => exact lockstep.runTokensWith followed related tokens
  | dispatch token => exact lockstep.dispatchWith followed related token
  | execute name => exact lockstep.executeWith followed related name
  | executeBody body => exact lockstep.executeBodyWith followed related admitted

end Interpreters

include lockstep

/-- Related machines serve calls alike, by induction on how deep these may nest. -/
theorem interpretBelow (bound : Nat) :
    InterpretersFollow pair excuse R (natives.interpretBelow bound)
      (natives'.interpretBelow bound) := by
  induction bound with
  | zero => exact fun _ _ _ _ _ _ ended => nomatch ended
  | succ bound ih => exact lockstep.interpretWith ih

theorem interpret (bound : Nat) :
    InterpretersFollow pair excuse R (natives.interpret bound) (natives'.interpret bound) :=
  lockstep.interpretWith (lockstep.interpretBelow bound)

end Lockstep

/-! ## Loads -/

/-- A load stops with an error of the machine that is excused. -/
def LoadExcused (excuse : Error → Prop) (loaded : Source.Loaded) : Prop :=
  ∃ token error, loaded.error = some (.ofError token error) ∧ excuse error

/-- Two loads end alike. -/
structure LoadsEndAlike (R : Machine → Machine → Prop) (first second : Source.Loaded) : Prop where
  error : second.error = first.error
  machine : R first.machine second.machine

/-- The second load follows the first. -/
def LoadFollows (excuse : Error → Prop) (R : Machine → Machine → Prop)
    (first second : Option Source.Loaded) : Prop :=
  ∀ loaded, first = some loaded →
    LoadExcused excuse loaded ∨ ∃ loaded', second = some loaded' ∧ LoadsEndAlike R loaded loaded'

/-- Where no error is excused, a load that follows ends alike. -/
theorem LoadFollows.exists_endAlike {first second : Option Source.Loaded}
    (follows : LoadFollows (fun _ => False) R first second) {loaded : Source.Loaded}
    (ended : first = some loaded) :
    ∃ loaded', second = some loaded' ∧ LoadsEndAlike R loaded loaded' := by
  rcases follows loaded ended with ⟨_, _, _, excused⟩ | alike
  · exact excused.elim
  · exact alike

/-- An item whose operations follow each other. -/
theorem loadFollows_ofOutcome {first second : Option Outcome}
    (follows : Follows excuse R first second) (token : SourceToken) :
    LoadFollows excuse R (first.map (.ofOutcome token)) (second.map (.ofOutcome token)) := by
  intro loaded ended
  obtain ⟨o, reached, rfl⟩ := Option.map_eq_some_iff.mp ended
  rcases follows o reached with ⟨error, stopped, excused⟩ | ⟨o', reached', alike⟩
  · exact .inl ⟨token, error, by simp [Source.Loaded.ofOutcome, stopped], excused⟩
  · refine .inr ⟨.ofOutcome token o', by rw [reached', Option.map_some], ?_, alike.machine⟩
    simp only [Source.Loaded.ofOutcome, alike.error]

namespace InterpretersFollow

variable {pair : Native → Native → Prop} {interpreter interpreter' : Interpreter}
  (followed : InterpretersFollow pair excuse R interpreter interpreter')
  (kept : KeptBySteps excuse R)

include followed kept

theorem perform {m m' : Machine} (related : R m m') (item : Source.Item) :
    LoadFollows excuse R (interpreter.perform m item) (interpreter'.perform m' item) := by
  cases item with
  | comment =>
      rintro _ ⟨⟩
      exact .inr ⟨_, rfl, rfl, related⟩
  | definition name effect body =>
      exact loadFollows_ofOutcome (kept.define related name.text effect body).follows name
  | forget name => exact loadFollows_ofOutcome (kept.forget related name.text).follows name
  | dispatch token =>
      exact loadFollows_ofOutcome (followed related (.dispatch token.text) trivial) token

/-- Related machines do items alike, by induction on the items. -/
theorem performAll {m m' : Machine} (related : R m m') (items : List Source.Item) :
    LoadFollows excuse R (interpreter.performAll m items) (interpreter'.performAll m' items) := by
  induction items generalizing m m' with
  | nil =>
      rintro _ ⟨⟩
      exact .inr ⟨_, rfl, rfl, related⟩
  | cons item rest ih =>
      intro final ended
      obtain ⟨loaded, reached, after⟩ := Option.bind_eq_some_iff.mp ended
      rcases followed.perform kept related item loaded reached with
        ⟨token, error, stopped, excused⟩ | ⟨loaded', reached', alike⟩
      · simp only [stopped, Option.some.injEq] at after
        subst after
        exact .inl ⟨token, error, stopped, excused⟩
      · simp only [Interpreter.performAll, reached', Option.bind_some, alike.error]
        cases stopped : loaded.error with
        | some error =>
            simp only [stopped, Option.some.injEq] at after
            subst after
            exact .inr ⟨loaded', rfl, alike⟩
        | none =>
            simp only [stopped] at after
            exact ih alike.machine final after

/-- Related machines load a source alike. -/
theorem load {m m' : Machine} (related : R m m') (source : String) :
    LoadFollows excuse R (interpreter.load m source) (interpreter'.load m' source) := by
  rw [interpreter.load_eq, interpreter'.load_eq]
  intro final ended
  obtain ⟨loaded, reached, rfl⟩ := Option.map_eq_some_iff.mp ended
  rcases followed.performAll kept related _ loaded reached with
    ⟨token, error, stopped, excused⟩ | ⟨loaded', reached', alike⟩
  · exact .inl ⟨token, error, by simp [stopped], excused⟩
  · refine .inr ⟨_, by rw [Interpreter.performProgram, reached', Option.map_some], ?_⟩
    cases stopped : loaded.error <;>
      exact ⟨by simp [alike.error, stopped], by simpa [alike.error, stopped] using alike.machine⟩

end InterpretersFollow

/-! ## The machine's own words -/

namespace Simulation

variable (simulation : Simulation admits excuse R)

include simulation

/-- Native words with the same admitted action follow each other. -/
theorem functionsFollow_own (pair : Native → Native → Prop) {native native' : Native}
    (same : native.action = native'.action) (admitted : admits native.action) :
    FunctionsFollow pair excuse R (Natives.own native) (Natives.own native') := by
  intro interpreter interpreter' followed m m' related
  unfold Natives.own
  rw [← same]
  cases acts : native.action with
  | core word => exact (simulation.core related word).follows
  | console word => exact (simulation.console related word).follows
  | host action =>
      rw [acts] at admitted
      cases action with
      | push v => exact (simulation.push related v admitted).follows
      | countWords =>
          simp only [Machine.actWith, hostActWith, simulation.count related]
          exact (simulation.number related _).follows
      | fail message => exact (FollowsNow.of_error related _).follows
      | run source => exact followed related (.run (Text.words source)) trivial
      | forget name => exact (simulation.forget related name).follows
      | define name tokens => exact (simulation.define related name none tokens).follows
      | noop => exact FollowsNow.follows (.inr ⟨rfl, related⟩)

/-- Native words that act as their actions say keep the relation in step. -/
theorem lockstep :
    Lockstep (fun native native' => native.action = native'.action ∧ admits native.action) excuse R
      .own .own where
  toKeptBySteps := simulation.toKeptBySteps
  functions := fun paired => simulation.functionsFollow_own _ paired.1 paired.2
  resolved := by
    intro m m' related name body dictionary found
    obtain ⟨body', dictionary', found', alike, admitted, counted⟩ :=
      simulation.resolved related name body dictionary found
    exact ⟨body', dictionary', found', alike.paired admitted, counted⟩

/-- Related machines do alike what is asked of them. -/
theorem interpreter (bound : Nat) :
    InterpretersFollow (fun native native' => native.action = native'.action ∧ admits native.action)
      excuse R (interpreter bound) (interpreter bound) := by
  rw [← Natives.interpret_own]
  exact simulation.lockstep.interpret bound

theorem dispatch (bound : Nat) {m m' : Machine} (related : R m m') (token : String) :
    Follows excuse R (m.dispatch bound token) (m'.dispatch bound token) :=
  simulation.interpreter bound related (.dispatch token) trivial

theorem runTokens (bound : Nat) {m m' : Machine} (related : R m m') (tokens : List String) :
    Follows excuse R (m.runTokens bound tokens) (m'.runTokens bound tokens) :=
  simulation.interpreter bound related (.run tokens) trivial

theorem execute (bound : Nat) {m m' : Machine} (related : R m m') (name : String) :
    Follows excuse R (m.execute bound name) (m'.execute bound name) :=
  simulation.interpreter bound related (.execute name) trivial

theorem executeWord (bound : Nat) {m m' : Machine} (related : R m m') (word : Word)
    (admitted : word.body.Admitted admits) :
    Follows excuse R (m.executeWord bound word) (m'.executeWord bound word) :=
  simulation.interpreter bound related (.executeBody word.body)
    ((Body.ActsLike.refl word.body).paired admitted)

/-- Related machines load a source alike. -/
theorem load (bound : Nat) {m m' : Machine} (related : R m m') (source : String) :
    LoadFollows excuse R (m.load bound source) (m'.load bound source) := by
  rw [← load_interpreter, ← load_interpreter]
  exact (simulation.interpreter bound).load simulation.toKeptBySteps related source

end Simulation

/-- If no error is excused, related machines end every load alike. -/
theorem Simulation.exists_load (simulation : Simulation admits (fun _ => False) R) {bound : Nat}
    {m m' : Machine} (related : R m m') {source : String} {loaded : Source.Loaded}
    (ended : m.load bound source = some loaded) :
    ∃ loaded', m'.load bound source = some loaded' ∧ LoadsEndAlike R loaded loaded' :=
  (simulation.load bound related source).exists_endAlike ended

/-! ## Invariants -/

/-- A property of machines that every primitive operation keeps, where words have admitted
actions. -/
structure Invariant (admits : Action → Prop) (P : Machine → Prop) : Prop where
  number : ∀ {m}, P m → ∀ x, P (m.push (.number x)).machine
  push : ∀ {m}, P m → ∀ v, admits (.host (.push v)) → P (m.push v).machine
  core : ∀ {m}, P m → ∀ word : CoreWord, P (m.onStack word.run).machine
  console : ∀ {m}, P m → ∀ word : ConsoleWord, P (word.run m).machine
  define : ∀ {m}, P m → ∀ name effect tokens,
    P (m.define name { effect, body := .compiled tokens }).machine
  forget : ∀ {m}, P m → ∀ name, P (m.forget name).machine
  record : ∀ {m}, P m → ∀ token, P (m.record token)
  enter : ∀ {m}, P m → P m.enter
  leave : ∀ {m}, P m → P m.leave
  resolved : ∀ {m}, P m → ∀ name body dictionary,
    m.dictionary.resolve? name = some (body, dictionary) →
      body.Admitted admits ∧ P { m with dictionary }

namespace Invariant

variable {P : Machine → Prop}

/-- What holds before an operation that ends holds after it. -/
theorem of_follows {first second : Option Outcome}
    (follows : Follows (fun _ => False) (fun m m' => m' = m ∧ P m) first second) {o : Outcome}
    (ended : first = some o) : P o.machine := by
  obtain ⟨_, _, alike⟩ := follows.exists_endAlike ended
  exact alike.machine.2

variable (invariant : Invariant admits P)

include invariant

/-- An invariant makes a machine simulate itself. -/
theorem simulation : Simulation admits (fun _ => False) fun m m' => m' = m ∧ P m where
  number := by
    rintro m _ ⟨rfl, holds⟩ x
    exact .inr ⟨rfl, rfl, invariant.number holds x⟩
  push := by
    rintro m _ ⟨rfl, holds⟩ v admitted
    exact .inr ⟨rfl, rfl, invariant.push holds v admitted⟩
  count := by
    rintro m _ ⟨rfl, _⟩
    rfl
  core := by
    rintro m _ ⟨rfl, holds⟩ word
    exact .inr ⟨rfl, rfl, invariant.core holds word⟩
  console := by
    rintro m _ ⟨rfl, holds⟩ word
    exact .inr ⟨rfl, rfl, invariant.console holds word⟩
  define := by
    rintro m _ ⟨rfl, holds⟩ name effect tokens
    exact .inr ⟨rfl, rfl, invariant.define holds name effect tokens⟩
  forget := by
    rintro m _ ⟨rfl, holds⟩ name
    exact .inr ⟨rfl, rfl, invariant.forget holds name⟩
  record := by
    rintro m _ ⟨rfl, holds⟩ token
    exact ⟨rfl, invariant.record holds token⟩
  enter := by
    rintro m _ ⟨rfl, holds⟩
    exact ⟨rfl, invariant.enter holds⟩
  leave := by
    rintro m _ ⟨rfl, holds⟩
    exact ⟨rfl, invariant.leave holds⟩
  unresolved := by
    rintro m _ ⟨rfl, _⟩ name missing
    exact missing
  resolved := by
    rintro m _ ⟨rfl, holds⟩ name body dictionary found
    obtain ⟨admitted, counted⟩ := invariant.resolved holds name body dictionary found
    exact ⟨body, dictionary, found, .refl body, admitted, rfl, counted⟩

theorem dispatch {bound : Nat} {m : Machine} (holds : P m) {token : String} {o : Outcome}
    (ended : m.dispatch bound token = some o) : P o.machine :=
  of_follows (invariant.simulation.dispatch bound ⟨rfl, holds⟩ token) ended

theorem runTokens {bound : Nat} {m : Machine} (holds : P m) {tokens : List String} {o : Outcome}
    (ended : m.runTokens bound tokens = some o) : P o.machine :=
  of_follows (invariant.simulation.runTokens bound ⟨rfl, holds⟩ tokens) ended

theorem execute {bound : Nat} {m : Machine} (holds : P m) {name : String} {o : Outcome}
    (ended : m.execute bound name = some o) : P o.machine :=
  of_follows (invariant.simulation.execute bound ⟨rfl, holds⟩ name) ended

theorem executeWord {bound : Nat} {m : Machine} (holds : P m) {word : Word}
    (admitted : word.body.Admitted admits) {o : Outcome}
    (ended : m.executeWord bound word = some o) : P o.machine :=
  of_follows (invariant.simulation.executeWord bound ⟨rfl, holds⟩ word admitted) ended

/-- What holds before a load that ends holds after it. -/
theorem load {bound : Nat} {m : Machine} (holds : P m) {source : String} {loaded : Source.Loaded}
    (ended : m.load bound source = some loaded) : P loaded.machine := by
  obtain ⟨_, _, alike⟩ := invariant.simulation.exists_load ⟨rfl, holds⟩ ended
  exact alike.machine.2

end Invariant

end Machine

end WordMachine
