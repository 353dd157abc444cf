import WordMachine.Proofs.Machine.Capacity
import WordMachine.Proofs.Machine.LibraryWords

/-! # What lies below on the stack

A program that succeeds on a stack succeeds in the same way with any values put below that stack,
if there is room for them: it never looks below what it consumes. This leaves out the words that
see the stack as a whole, which are `DEPTH`, `CLEAR` and `.S`, under whatever names they are found.
-/

namespace WordMachine

/-- The second stack holds the values of the first on top of a base and has room for both. -/
structure Stack.StandsOn (base : List Value) (s s' : Stack) : Prop where
  values : s'.toList = base ++ s.toList
  room : s.limit + base.length ≤ s'.limit

namespace Stack

variable {base : List Value} {s s' : Stack}

theorem StandsOn.items (stands : StandsOn base s s') : s'.items = s.items ++ base.reverse := by
  have values := congrArg List.reverse stands.values
  unfold toList at values
  rwa [List.reverse_append, List.reverse_reverse, List.reverse_reverse] at values

theorem standsOn_of_items (items : s'.items = s.items ++ base.reverse)
    (room : s.limit + base.length ≤ s'.limit) : StandsOn base s s' where
  values := by
    unfold toList
    rw [items, List.reverse_append, List.reverse_reverse]
  room := room

/-- On top of a base, accesses to the top do the same as long as they succeed. -/
theorem keptByAccess_standsOn (base : List Value) :
    StackM.KeptByAccess (fun _ => True) (StandsOn base) where
  push v := by
    intro s s' stands
    unfold StackM.push Stack.push
    by_cases full : s.limit ≤ s.depth
    · rw [if_pos full]
      exact .inl trivial
    · have depth : s'.depth = s.depth + base.length := by
        unfold Stack.depth
        rw [stands.items, List.length_append, List.length_reverse]
      have room : ¬s'.limit ≤ s'.depth := by
        have wide := stands.room
        omega
      rw [if_neg full, if_neg room]
      refine ⟨_, rfl, standsOn_of_items ?_ stands.room⟩
      rw [stands.items, List.cons_append]
  pop := by
    intro s s' stands
    unfold StackM.pop Stack.pop
    rw [stands.items]
    cases s.items with
    | nil => exact .inl trivial
    | cons v rest => exact ⟨_, rfl, standsOn_of_items rfl stands.room⟩
  peek := by
    intro s s' stands
    unfold StackM.peek Stack.peek
    rw [stands.items]
    cases s.items with
    | nil => exact .inl trivial
    | cons v rest => exact ⟨_, rfl, stands⟩

end Stack

/-- The actions that see the data stack as a whole. -/
def Action.SeesWholeStack : Action → Prop
  | .core word => word = .depth ∨ word = .clear
  | .console word => word = .printStack
  | .host _ => False

/-- The names of the library's words that see the data stack as a whole. -/
def Library.wholeStackWords : List String :=
  ["DEPTH", "CLEAR", ".S"]

theorem Action.SeesWholeStack.mem_wholeStackWords {action : Action}
    (sees : action.SeesWholeStack)
    {name : String} (named : action.libraryName? = some name) :
    name ∈ Library.wholeStackWords := by
  cases action with
  | core word =>
      cases named
      rcases sees with rfl | rfl <;> decide
  | console word =>
      cases named
      cases sees
      decide
  | host action => exact sees.elim

namespace Dictionary

/-- No token names a word that sees the data stack as a whole, and none does in the bodies of
compiled words. -/
structure TopOnly (d : Dictionary) (tokens : List String) : Prop where
  tokens : ∀ token ∈ tokens, ∀ native, d.body? token = some (.native native) →
    ¬native.action.SeesWholeStack
  bodies : ∀ name body, d.body? name = some (.compiled body) → ∀ token ∈ body, ∀ native,
    d.body? token = some (.native native) → ¬native.action.SeesWholeStack

theorem TopOnly.rest {d : Dictionary} {token : String} {rest : List String}
    (top : d.TopOnly (token :: rest)) : d.TopOnly rest :=
  { top with tokens := fun other member => top.tokens other (.tail _ member) }

theorem TopOnly.of_eq {d next : Dictionary} {tokens : List String} (top : d.TopOnly tokens)
    (same : next.body? = d.body?) : next.TopOnly tokens := by
  constructor <;> rw [same]
  · exact top.tokens
  · exact top.bodies

/-- Where the library's words have their own names only, it is enough to look at the names. -/
theorem HoldsLibrary.topOnly {d : Dictionary} (library : d.HoldsLibrary) {tokens : List String}
    (bodies : ∀ name body, d.body? name = some (.compiled body) →
      ∀ word ∈ Library.wholeStackWords, word ∉ body)
    (outside : ∀ word ∈ Library.wholeStackWords, word ∉ tokens) : d.TopOnly tokens := by
  have named : ∀ {token : String} {native : Native}, d.body? token = some (.native native) →
      native.action.SeesWholeStack → token ∈ Library.wholeStackWords :=
    fun found sees => sees.mem_wholeStackWords (library _ _ found)
  constructor
  · intro token member native found sees
    exact outside token (named found sees) member
  · intro name body compiled token member native found sees
    exact bodies name body compiled token (named found sees) member

end Dictionary

namespace Machine

/-- The second machine has the words and the console of the first, and its data stack holds that
of the first on top of a base. -/
structure StandsOn (base : List Value) (m m' : Machine) : Prop where
  data : m.data.StandsOn base m'.data
  dictionary : m'.dictionary = m.dictionary
  console : m'.console = m.console

namespace StandsOn

variable {base : List Value} {m m' : Machine}

theorem replaced (stands : StandsOn base m m') {s s' : Stack} (data : s.StandsOn base s') :
    StandsOn base { m with data := s } { m' with data := s' } :=
  { stands with data }

theorem push (stands : StandsOn base m m') (v : Value) :
    FollowsNow (fun _ => True) (StandsOn base) (m.push v) (m'.push v) :=
  followsNow_onStack stands.data stands.replaced ((Stack.keptByAccess_standsOn base).push v)

theorem write (stands : StandsOn base m m') (text : String) :
    FollowsNow (fun _ => True) (StandsOn base) (m.write text) (m'.write text) := by
  unfold Machine.write
  rw [stands.console]
  cases m.console.write text with
  | ok console => exact .inr ⟨rfl, { stands with console := rfl }⟩
  | error error => exact .inr ⟨rfl, stands⟩

/-- A word of the library that sees the top of the stack only does the same on a base. -/
theorem actWith (stands : StandsOn base m m') {action : Action} (library : action.OfLibrary)
    (top : ¬action.SeesWholeStack) (call : Call) :
    Follows (fun _ => True) (StandsOn base) (actWith call m action) (actWith call m' action) := by
  have kept := Stack.keptByAccess_standsOn base
  cases action with
  | core word =>
      have apart := not_or.mp top
      exact (followsNow_onStack stands.data stands.replaced
        (kept.coreWord apart.1 apart.2)).follows
  | console word =>
      apply FollowsNow.follows
      apply followsNow_consoleWord stands.data stands.replaced
      · rw [stands.dictionary]
      · exact kept.consoleText top _
      · exact StandsOn.write
  | host action => exact library.elim

theorem record (stands : StandsOn base m m') (token : String) :
    StandsOn base (m.record token) (m'.record token) := by
  unfold Machine.record
  split <;> split <;> exact { stands with }

theorem taken (stands : StandsOn base m m') (token : String) :
    StandsOn base (m.taken token) (m'.taken token) where
  data := (stands.record token).data
  dictionary := congrArg (·.counted token) stands.dictionary
  console := (stands.record token).console

end StandsOn

/-- What follows a success is a success. -/
theorem Follows.exists_done {excuse : Error → Prop} {R : Machine → Machine → Prop}
    {first second : Option Outcome} (follows : Follows excuse R first second) {next : Machine}
    (ended : first = some next.done) : ∃ next', second = some next'.done ∧ R next next' := by
  rcases follows _ ended with ⟨_, fails, _⟩ | ⟨⟨next', error⟩, reached, alike⟩
  · cases fails
  · cases show error = none from alike.error
    exact ⟨next', reached, alike.machine⟩

variable {base : List Value}

/-- A token that acts and succeeds does the same on a base. -/
theorem Acts.standsOn {m m' next : Machine} {token : String} (acts : m.Acts token next.done)
    (stands : StandsOn base m m') (library : m.dictionary.NativesOfLibrary)
    (top : ∀ native, m.dictionary.body? token = some (.native native) →
      ¬native.action.SeesWholeStack) :
    ∃ next', m'.Acts token next'.done ∧ StandsOn base next next' := by
  generalize ended : next.done = o at acts
  cases acts with
  | numeral meaning =>
      obtain ⟨next', pushed, kept⟩ := ((stands.record token).push _).follows.exists_done
        (congrArg some ended.symm)
      exact ⟨next', Option.some.inj pushed ▸ .numeral meaning, kept⟩
  | missing meaning unknown => cases congrArg Outcome.error ended
  | @native native _ meaning found acts =>
      have found' := found
      rw [← stands.dictionary] at found'
      have follows := (stands.taken token).actWith (library _ _ found) (top _ found)
      rcases exists_actWith (m'.taken token) native.action with ⟨source, runs⟩ | ⟨o', acts'⟩
      · have contrary := library _ _ found
        rw [runs] at contrary
        exact contrary.elim
      · -- Neither side calls anything, so it does not matter what a call would do.
        obtain ⟨next', reached, kept⟩ :=
          (follows fun _ _ => none).exists_done ((acts _).trans (congrArg some ended.symm))
        cases (acts' _).symm.trans reached
        exact ⟨next', .native meaning found' acts', kept⟩

/-- A token unfolds to the same tokens on a base. -/
theorem UnfoldsTo.standsOn {m m' start : Machine} {token : String} {tokens : List String}
    {finish : Machine → Machine} (unfolds : m.UnfoldsTo token start tokens finish)
    (stands : StandsOn base m m') :
    ∃ start', m'.UnfoldsTo token start' tokens finish ∧ StandsOn base start start' ∧
      ∀ {reached reached'}, StandsOn base reached reached' →
        StandsOn base (finish reached) (finish reached') := by
  have taken := stands.taken token
  cases unfolds with
  | compiled meaning found =>
      rw [← stands.dictionary] at found
      exact ⟨_, .compiled meaning found, { taken with }, fun kept => { kept with }⟩
  | host meaning found runs =>
      rw [← stands.dictionary] at found
      exact ⟨_, .host meaning found runs, taken, fun kept => kept⟩

/-- A run that succeeds does the same on a base, by induction on the run. -/
theorem Runs.standsOn {bound : Nat} {m m' : Machine} {tokens : List String} {o : Outcome}
    (runs : Runs bound m tokens o) (stands : StandsOn base m m')
    (library : m.dictionary.NativesOfLibrary) (top : m.dictionary.TopOnly tokens)
    (succeeds : o.error = none) :
    ∃ o', Runs bound m' tokens o' ∧ o'.error = none ∧ StandsOn base o.machine o'.machine := by
  induction runs generalizing m' with
  | done m => exact ⟨_, .done m', rfl, stands⟩
  | actFails | callFails => cases succeeds
  | act acts _ ih =>
      have same := acts.body?_eq library
      obtain ⟨next', acts', kept⟩ := acts.standsOn stands library (top.tokens _ (.head _))
      obtain ⟨o', continues, ended⟩ :=
        ih kept (library.of_eq same) (top.rest.of_eq same) succeeds
      exact ⟨o', .act acts' continues, ended⟩
  | call unfolds called _ ih_called ih =>
      obtain ⟨_, found⟩ := unfolds.of_library library
      obtain ⟨started, finished⟩ := unfolds.body?_eq
      obtain ⟨start', unfolds', entered, left⟩ := unfolds.standsOn stands
      have library_inside := library.of_eq started
      have top_inside : Dictionary.TopOnly _ _ := { top with tokens := top.bodies _ _ found }
      obtain ⟨⟨reached', error⟩, called', rfl, inside⟩ :=
        ih_called entered library_inside (top_inside.of_eq started) rfl
      have same := (called.body?_eq library_inside).trans started
      rw [finished] at ih
      obtain ⟨o', continues, ended⟩ :=
        ih (left inside) (library.of_eq same) (top.rest.of_eq same) succeeds
      exact ⟨o', .call unfolds' called' continues, ended⟩

/-- **Nothing looks below what it consumes.** Take a machine whose native words are the library's,
under any names, and let no token of the source or of a compiled word name `DEPTH`, `CLEAR` or `.S`
under any of theirs. If the source runs without an error, it does so on top of any base for which
there is room, and leaves the same values on the base, the same dictionary and the same console. -/
theorem run_standsOn {bound : Nat} {m m' : Machine} {source : String} {o : Outcome}
    (library : m.dictionary.NativesOfLibrary) (top : m.dictionary.TopOnly (Text.words source))
    (ended : m.run bound source = some o) (succeeds : o.error = none)
    (stands : StandsOn base m m') :
    ∃ o', m'.run bound source = some o' ∧ o'.error = none ∧
      StandsOn base o.machine o'.machine := by
  have runs : Runs bound m (Text.words source) o := runTokens_eq_some_iff.mp ended
  obtain ⟨o', runs', rest⟩ := runs.standsOn stands library top succeeds
  exact ⟨o', runTokens_eq_some_iff.mpr runs', rest⟩

/-- Which compiled words have a token in a list can be checked word by word. -/
theorem not_mem_bodies_of_all {d : Dictionary} {avoided : List String}
    (checked : d.words.all (fun w => match w.body with
      | .compiled body => decide (∀ word ∈ avoided, word ∉ body)
      | .native _ => true) = true) :
    ∀ name body, d.body? name = some (.compiled body) → ∀ word ∈ avoided, word ∉ body := by
  intro name body found
  obtain ⟨w, known, compiled⟩ := Option.map_eq_some_iff.mp found
  have clean := List.all_eq_true.mp checked w (Dictionary.mem_of_find? known)
  rw [compiled] at clean
  exact of_decide_eq_true clean

/-- A squaring word fills its stack of two values; on a base it runs where four fit. -/
theorem run_standsOn_of_square :
    let base := [Value.text "below", .nil]
    let m := ({ Library.bootstrapped 0 .default .millennium with
      data := ⟨"data", 2, [.number 3]⟩ }.define "SQUARE" (.ofTokens ["DUP", "*"])).machine
    let m' := { m with data := ⟨"data", 4, [.number 3, .nil, .text "below"]⟩ }
    StandsOn base m m' ∧ ∃ o o', m.run 2 "SQUARE DUP . 1 +" = some o ∧ o.error = none ∧
      m'.run 2 "SQUARE DUP . 1 +" = some o' ∧ o'.error = none ∧
      o'.machine.data.toList = base ++ [.number 10] ∧ o'.machine.console.written = "9 " := by
  intro base m m'
  have library : m.dictionary.HoldsLibrary := by
    apply invariant_holdsLibrary.define
    exact Library.holdsLibrary_bootstrapped 0 .default .millennium
  have bodies := @not_mem_bodies_of_all m.dictionary Library.wholeStackWords (by decide +kernel)
  have tokens : ∀ word ∈ Library.wholeStackWords, word ∉ Text.words "SQUARE DUP . 1 +" := by
    decide +kernel
  have top := library.topOnly bodies tokens
  have stands : StandsOn base m m' := ⟨⟨by decide +kernel, by decide +kernel⟩, rfl, rfl⟩
  have ends : (m.run 2 "SQUARE DUP . 1 +").map (fun o =>
      (o.error, o.machine.data.toList, o.machine.console.written)) =
      some (none, [.number 10], "9 ") := by
    decide +kernel
  obtain ⟨o, ended, values⟩ := Option.map_eq_some_iff.mp ends
  obtain ⟨succeeds, values⟩ := Prod.mk.inj values
  obtain ⟨data, written⟩ := Prod.mk.inj values
  obtain ⟨o', ended', succeeds', kept⟩ :=
    run_standsOn library.nativesOfLibrary top ended succeeds stands
  refine ⟨stands, o, o', ended, succeeds, ended', succeeds', ?_, ?_⟩
  · rw [kept.data.values, data]
  · rw [kept.console, written]

/-- What `DEPTH` does natively is given a second name `D`. No token of the source or of a compiled
word is one of the three names, and `D` still tells how deep the base is. -/
theorem not_standsOn_of_alias :
    let library := Library.bootstrapped 0 .default .millennium
    let native : Native := ⟨32, .core .depth⟩
    let m := (library.define "D" { body := .native native }).machine
    let m' := { m with data := ⟨"data", 257, [.number 7]⟩ }
    library.dictionary.body? "DEPTH" = some (.native native) ∧
      m.dictionary.NativesOfLibrary ∧
      (∀ name body, m.dictionary.body? name = some (.compiled body) →
        ∀ word ∈ Library.wholeStackWords, word ∉ body) ∧
      (∀ word ∈ Library.wholeStackWords, word ∉ Text.words "D") ∧
      StandsOn [.number 7] m m' ∧
      ∃ o o', m.run 1 "D" = some o ∧ o.error = none ∧ m'.run 1 "D" = some o' ∧ o'.error = none ∧
        o.machine.data.toList = [.number 0] ∧
        o'.machine.data.toList = [.number 7, .number 1] := by
  intro library native m m'
  have known : library.dictionary.body? "DEPTH" = some (.native native) := by decide +kernel
  have natives : m.dictionary.NativesOfLibrary := by
    have holds := (Library.holdsLibrary_bootstrapped 0 .default .millennium).nativesOfLibrary
    apply define_dictionary holds
    intro next defined
    apply holds.define _ defined
    rintro _ ⟨⟩
    exact trivial
  have runs : (m.run 1 "D").map (fun o => (o.error, o.machine.data.toList)) =
      some (none, [.number 0]) := by
    decide +kernel
  have runs' : (m'.run 1 "D").map (fun o => (o.error, o.machine.data.toList)) =
      some (none, [.number 7, .number 1]) := by
    decide +kernel
  obtain ⟨o, ended, values⟩ := Option.map_eq_some_iff.mp runs
  obtain ⟨o', ended', values'⟩ := Option.map_eq_some_iff.mp runs'
  obtain ⟨succeeds, data⟩ := Prod.mk.inj values
  obtain ⟨succeeds', data'⟩ := Prod.mk.inj values'
  have stands : StandsOn [.number 7] m m' := ⟨⟨by decide +kernel, by decide +kernel⟩, rfl, rfl⟩
  exact ⟨known, natives, not_mem_bodies_of_all (by decide +kernel), by decide +kernel, stands,
    o, o', ended, succeeds, ended', succeeds', data, data'⟩

end Machine

end WordMachine
