import WordMachine.Proofs.Library
import WordMachine.Proofs.Machine.Unfolding

/-! # Machines of library words

A machine with the library in which sources were loaded has native words of the library only, each
under the name that the library gives it (`Dictionary.HoldsLibrary`). Whatever names they have,
native words of the library do not touch the dictionary, so that a run leaves the bodies of all
words as they are (`Machine.Runs.body?_eq`).
-/

namespace WordMachine

/-- An action of the library: a core word or a console word. -/
def Action.OfLibrary : Action → Prop
  | .core _ => True
  | .console _ => True
  | .host _ => False

/-- Every native word acts as a word of the library. -/
def Dictionary.NativesOfLibrary (d : Dictionary) : Prop :=
  ∀ name native, d.body? name = some (.native native) → native.action.OfLibrary

theorem Dictionary.NativesOfLibrary.of_eq {d next : Dictionary} (library : d.NativesOfLibrary)
    (same : next.body? = d.body?) : next.NativesOfLibrary := by
  unfold NativesOfLibrary
  rw [same]
  exact library

/-- The name that the library gives to an action. -/
def Action.libraryName? : Action → Option String
  | .core word => some word.name
  | .console word => some word.name
  | .host _ => none

namespace Dictionary

/-- Every native word is the library's word of that name. -/
def HoldsLibrary (d : Dictionary) : Prop :=
  ∀ name native, d.body? name = some (.native native) → native.action.libraryName? = some name

theorem HoldsLibrary.nativesOfLibrary {d : Dictionary} (holds : d.HoldsLibrary) :
    d.NativesOfLibrary := by
  intro name native found
  have named := holds name native found
  cases action : native.action with
  | core | console => exact trivial
  | host =>
      rw [action] at named
      cases named

/-- After a definition its name has the new body and the others keep theirs. -/
theorem body?_afterDefine (d : Dictionary) (now : Instant) (name other : String)
    (definition : Definition) :
    (d.afterDefine now name definition).body? other =
      if other = name then some definition.body else d.body? other := by
  unfold body?
  rw [find?_afterDefine]
  split
  · unfold wordDefined
    split <;> rfl
  · rfl

/-- A definition keeps that natives are the library's if its own body is none or one of them. -/
theorem NativesOfLibrary.define {d next : Dictionary} (library : d.NativesOfLibrary) {now : Instant}
    {name : String} {definition : Definition}
    (body : ∀ native, definition.body = .native native → native.action.OfLibrary)
    (defined : d.define now name definition = .ok next) : next.NativesOfLibrary := by
  obtain ⟨_, _, rfl⟩ := define_ok_iff.mp defined
  intro other native found
  rw [body?_afterDefine] at found
  split at found
  · exact body native (Option.some.inj found)
  · exact library other native found

/-- A compiled definition brings no native in. -/
theorem HoldsLibrary.define {d next : Dictionary} (holds : d.HoldsLibrary) {now : Instant}
    {name : String} {effect : Option String} {tokens : List String}
    (defined : d.define now name { effect, body := .compiled tokens } = .ok next) :
    next.HoldsLibrary := by
  obtain ⟨_, _, rfl⟩ := define_ok_iff.mp defined
  intro other native found
  rw [body?_afterDefine] at found
  split at found
  · cases found
  · exact holds other native found

/-- Forgetting leaves the other names with their bodies. -/
theorem HoldsLibrary.forget {d next : Dictionary} (holds : d.HoldsLibrary) {name : String}
    {word : Word} (forgotten : d.forget name = .ok (word, next)) : next.HoldsLibrary := by
  obtain ⟨_, _, rfl⟩ := forget_ok_iff.mp forgotten
  intro other native found
  have member := mem_names_of_body? found
  rw [names_filter_ne] at member
  have apart : other ≠ name := by
    simpa using (List.mem_filter.mp member).2
  unfold body? at found
  rw [find?_filter_ne d apart] at found
  exact holds other native found

/-- A use leaves all names with their bodies. -/
theorem HoldsLibrary.resolve {d next : Dictionary} (holds : d.HoldsLibrary) {name : String}
    {body : Body} (resolved : d.resolve? name = some (body, next)) : next.HoldsLibrary := by
  rw [resolve?_eq] at resolved
  obtain ⟨_, _, same⟩ := Option.map_eq_some_iff.mp resolved
  cases same
  intro other native found
  rw [body?_counted] at found
  exact holds other native found

end Dictionary

/-- The library installs its natives under their own names. -/
theorem Library.libraryName?_of_mem_words {identity : Nat} {parts : List Part}
    {p : String × Definition} (member : p ∈ words identity parts) :
    ∃ native, p.2.body = .native native ∧ native.action.libraryName? = some p.1 := by
  obtain ⟨part, _, defined⟩ := List.mem_flatMap.mp member
  cases part with
  | core =>
      obtain ⟨index, _, rfl⟩ := List.mem_mapIdx.mp defined
      exact ⟨_, rfl, rfl⟩
  | console =>
      obtain ⟨index, _, rfl⟩ := List.mem_mapIdx.mp defined
      exact ⟨_, rfl, rfl⟩

/-- The machine with the whole library holds the library's words. -/
theorem Library.holdsLibrary_bootstrapped (identity : Nat) (config : Config) (clock : Instant) :
    (bootstrapped identity config clock).dictionary.HoldsLibrary := by
  intro name native found
  obtain ⟨w, known, body⟩ := Option.map_eq_some_iff.mp found
  have member := Dictionary.mem_of_find? known
  rw [words_bootstrapped, installed, List.mem_map] at member
  obtain ⟨p, defined, rfl⟩ := member
  obtain ⟨native', body', named⟩ := libraryName?_of_mem_words defined
  have same : native' = native := Body.native.inj (body'.symm.trans body)
  rw [← same, named]
  exact congrArg some (Dictionary.name_of_find? known)

/-- Runs and loads keep the words of the library under their names: what they define is
compiled. -/
theorem Machine.invariant_holdsLibrary :
    Invariant (fun _ => True) fun m => m.dictionary.HoldsLibrary :=
  invariant_of_dictionary (fun holds => holds.define) (fun holds => holds.forget)
    fun holds => holds.resolve

/-! ## Runs -/

namespace Machine

/-- A library native does not touch the dictionary. -/
theorem dictionary_actWith_of_library {m : Machine} {action : Action} (library : action.OfLibrary)
    {call : Call} {o : Outcome} (acts : actWith call m action = some o) :
    o.machine.dictionary = m.dictionary := by
  cases action with
  | core word =>
      cases acts
      exact onStack_dictionary m word.run
  | console word =>
      cases acts
      exact consoleWord_dictionary m word
  | host action => exact library.elim

/-- Whatever a token does at once, every name keeps its body. -/
theorem Acts.body?_eq {m : Machine} (library : m.dictionary.NativesOfLibrary) {token : String}
    {o : Outcome} (acts : m.Acts token o) : o.machine.dictionary.body? = m.dictionary.body? := by
  cases acts with
  | numeral meaning => rw [push, onStack_dictionary, record_dictionary]
  | missing meaning unknown => exact congrArg Dictionary.body? (record_dictionary m token)
  | native meaning found acts =>
      rw [dictionary_actWith_of_library (library _ _ found) (acts fun _ _ => none)]
      exact m.dictionary.body?_counted token

/-- A call counts its use and leaves the bodies alone, when it starts and when it ends. -/
theorem UnfoldsTo.body?_eq {m start : Machine} {token : String} {tokens : List String}
    {finish : Machine → Machine} (unfolds : m.UnfoldsTo token start tokens finish) :
    start.dictionary.body? = m.dictionary.body? ∧
      ∀ reached, (finish reached).dictionary = reached.dictionary := by
  cases unfolds <;> exact ⟨m.dictionary.body?_counted token, fun _ => rfl⟩

/-- A token that unfolds on a machine of library words is that of a compiled word. -/
theorem UnfoldsTo.of_library {m start : Machine} {token : String} {tokens : List String}
    {finish : Machine → Machine} (library : m.dictionary.NativesOfLibrary)
    (unfolds : m.UnfoldsTo token start tokens finish) :
    Token.classify token = .word token ∧ m.dictionary.body? token = some (.compiled tokens) := by
  cases unfolds with
  | compiled meaning found => exact ⟨meaning, found⟩
  | host _ found runs =>
      have contrary := library _ _ found
      rw [runs] at contrary
      exact contrary.elim

/-- What the library runs leaves the bodies of all words as they are. -/
theorem Runs.body?_eq {bound : Nat} {m : Machine} {tokens : List String} {o : Outcome}
    (runs : Runs bound m tokens o) (library : m.dictionary.NativesOfLibrary) :
    o.machine.dictionary.body? = m.dictionary.body? := by
  induction runs with
  | done m => rfl
  | act acts _ ih =>
      have same := acts.body?_eq library
      exact (ih (library.of_eq same)).trans same
  | actFails acts => exact acts.body?_eq library
  | call unfolds _ _ ih_called ih =>
      obtain ⟨started, finished⟩ := unfolds.body?_eq
      have same := (ih_called (library.of_eq started)).trans started
      rw [finished] at ih
      exact (ih (library.of_eq same)).trans same
  | callFails unfolds _ ih_called =>
      obtain ⟨started, finished⟩ := unfolds.body?_eq
      rw [show (Machine.failed _ _).machine.dictionary = _ from finished _]
      exact (ih_called (library.of_eq started)).trans started

end Machine

end WordMachine
