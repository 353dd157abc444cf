import WordMachine.Proofs.Machine.Reachable
import WordMachine.Proofs.Machine.Tracing

/-! # How runs unfold

A token acts by itself, or it runs other tokens: those of a compiled word, or those that a host
action asks for. `Machine.Runs` gives the runs of a machine by rules that follow this
distinction, and a run within a bound is what the rules give within it
(`Machine.runTokens_eq_some_iff`). What holds of every run is then shown by induction on the
rules, where the bound on nested calls is just one of the things that a rule mentions.
-/

namespace WordMachine

/-- A token that is no numeral stands for the word of its own name. -/
theorem Token.eq_of_classify {token name : String} (word : Token.classify token = .word name) :
    name = token := by
  unfold Token.classify at word
  split at word
  · cases word
  · exact (Token.word.inj word).symm

namespace Dictionary

/-- The body behind a name. -/
def body? (d : Dictionary) (name : String) : Option Body :=
  (d.find? name).map Word.body

/-- The dictionary in which one more use of a name is counted. -/
def counted (d : Dictionary) (name : String) : Dictionary :=
  { d with words := replace d.words name Word.used }

/-- To resolve a name is to find its body and to count the use. -/
theorem resolve?_eq (d : Dictionary) (name : String) :
    d.resolve? name = (d.body? name).map fun body => (body, d.counted name) := by
  rw [resolve?, body?, Option.map_map]
  rfl

/-- A use keeps the names. -/
theorem names_counted (d : Dictionary) (name : String) : (d.counted name).names = d.names :=
  names_replace d.words name Word.used fun _ => rfl

/-- A use is counted in the word of its name and in no other. -/
theorem find?_counted (d : Dictionary) (name other : String) :
    (d.counted name).find? other =
      (d.find? other).map fun w => if w.name == name then w.used else w :=
  find?_replace d.words name other Word.used fun _ => rfl

/-- A use keeps names distinct and not empty. -/
theorem WellNamed.counted {d : Dictionary} (named : d.WellNamed) (name : String) :
    (d.counted name).WellNamed := by
  have names := d.names_counted name
  exact ⟨names ▸ named.distinct, names ▸ named.nonempty⟩

/-- Counting a use leaves every body as it is. -/
@[simp]
theorem body?_counted (d : Dictionary) (name : String) : (d.counted name).body? = d.body? := by
  funext other
  unfold body?
  rw [find?_counted, Option.map_map]
  apply congrArg (fun body => (d.find? other).map body)
  funext w
  simp only [Function.comp_apply]
  split <;> rfl

/-- A name that is not known has no word that could count its use. -/
theorem counted_of_unknown {d : Dictionary} {name : String} (unknown : d.body? name = none) :
    d.counted name = d := by
  have absent : name ∉ d.names := find?_eq_none_iff.mp (Option.map_eq_none_iff.mp unknown)
  have kept : replace d.words name Word.used = d.words := by
    apply Eq.trans _ d.words.map_id
    apply List.map_congr_left
    intro w member
    have apart : w.name ≠ name := fun named => absent (named ▸ List.mem_map_of_mem member)
    simp only [beq_iff_eq, apart, ↓reduceIte, id_eq]
  rw [counted, kept]

/-- A name with a body is defined. -/
theorem mem_names_of_body? {d : Dictionary} {name : String} {body : Body}
    (found : d.body? name = some body) : name ∈ d.names := by
  obtain ⟨word, known, _⟩ := Option.map_eq_some_iff.mp found
  rw [← find?_isSome_iff, known, Option.isSome_some]

end Dictionary

namespace Machine

/-- The machine that has recorded a token and counted a use of the word that it names. -/
def taken (m : Machine) (token : String) : Machine :=
  { m.record token with dictionary := m.dictionary.counted token }

/-- What a token does that runs no other tokens: it pushes its number, it names no word, or the
native word that it names does not run tokens either. -/
inductive Acts (m : Machine) (token : String) : Outcome → Prop where
  | numeral {x : Float} (meaning : Token.classify token = .number x) :
      Acts m token ((m.record token).push (.number x))
  | missing (meaning : Token.classify token = .word token)
      (unknown : m.dictionary.body? token = none) :
      Acts m token ((m.record token).failed (.undefinedWord token))
  | native {native : Native} {o : Outcome} (meaning : Token.classify token = .word token)
      (found : m.dictionary.body? token = some (.native native))
      (acts : ∀ call, actWith call (m.taken token) native.action = some o) : Acts m token o

/-- The tokens that a token runs, with the machine on which they start and what becomes of the
machine at their end. -/
inductive UnfoldsTo (m : Machine) (token : String) :
    Machine → List String → (Machine → Machine) → Prop where
  | compiled {tokens : List String} (meaning : Token.classify token = .word token)
      (found : m.dictionary.body? token = some (.compiled tokens)) :
      UnfoldsTo m token (m.taken token).enter tokens leave
  | host {native : Native} {source : String} (meaning : Token.classify token = .word token)
      (found : m.dictionary.body? token = some (.native native))
      (runs : native.action = .host (.run source)) :
      UnfoldsTo m token (m.taken token) (Text.words source) id

/-- Running tokens, by rules: each token in turn acts or unfolds, and the first error ends the
run. Below `bound + 1` levels of calls there are `bound`. -/
inductive Runs : Nat → Machine → List String → Outcome → Prop where
  | done {bound : Nat} (m : Machine) : Runs bound m [] m.done
  | act {bound : Nat} {m next : Machine} {token : String} {rest : List String} {o : Outcome}
      (acts : m.Acts token next.done) (continues : Runs bound next rest o) :
      Runs bound m (token :: rest) o
  | actFails {bound : Nat} {m reached : Machine} {token : String} {rest : List String}
      {error : Error} (acts : m.Acts token (reached.failed error)) :
      Runs bound m (token :: rest) (reached.failed error)
  | call {bound : Nat} {m start reached : Machine} {token : String} {tokens rest : List String}
      {finish : Machine → Machine} {o : Outcome}
      (unfolds : m.UnfoldsTo token start tokens finish)
      (called : Runs bound start tokens reached.done)
      (continues : Runs (bound + 1) (finish reached) rest o) :
      Runs (bound + 1) m (token :: rest) o
  | callFails {bound : Nat} {m start reached : Machine} {token : String}
      {tokens rest : List String} {finish : Machine → Machine} {error : Error}
      (unfolds : m.UnfoldsTo token start tokens finish)
      (called : Runs bound start tokens (reached.failed error)) :
      Runs (bound + 1) m (token :: rest) ((finish reached).failed error)

/-! ## The rules and the machine -/

/-- A known name is counted, and then its body is executed. -/
theorem executeWith_of_body (call : Call) {m : Machine} {name : String} {body : Body}
    (found : m.dictionary.body? name = some body) :
    m.executeWith call name =
      executeBodyWith call { m with dictionary := m.dictionary.counted name } body := by
  have resolved : m.dictionary.resolve? name = some (body, m.dictionary.counted name) := by
    rw [Dictionary.resolve?_eq, found, Option.map_some]
  simp only [executeWith, resolved]

/-- A word that is dispatched is recorded, counted and executed. -/
theorem dispatchWith_of_word (call : Call) {m : Machine} {token : String} {body : Body}
    (meaning : Token.classify token = .word token) (found : m.dictionary.body? token = some body) :
    m.dispatchWith call token = executeBodyWith call (m.taken token) body := by
  have recorded := record_dictionary m token
  rw [← recorded] at found
  simp only [dispatchWith, meaning]
  rw [executeWith_of_body call found, recorded]
  rfl

/-- What a token does at once is its whole dispatch. -/
theorem Acts.dispatchWith {m : Machine} {token : String} {o : Outcome} (acts : m.Acts token o)
    (call : Call) : m.dispatchWith call token = some o := by
  cases acts with
  | numeral meaning => rw [Machine.dispatchWith, meaning]
  | missing meaning unknown =>
      have unresolved : (m.record token).dictionary.resolve? token = none := by
        rw [record_dictionary, Dictionary.resolve?_eq, unknown, Option.map_none]
      simp only [Machine.dispatchWith, meaning, executeWith, unresolved]
  | native meaning found acts =>
      rw [dispatchWith_of_word call meaning found]
      exact acts call

/-- A call is dispatched by running its tokens and then finishing. -/
theorem UnfoldsTo.dispatchWith {m start : Machine} {token : String} {tokens : List String}
    {finish : Machine → Machine} (unfolds : m.UnfoldsTo token start tokens finish) (call : Call) :
    m.dispatchWith call token =
      (call start tokens).map fun o => { o with machine := finish o.machine } := by
  cases unfolds with
  | compiled meaning found => exact dispatchWith_of_word call meaning found
  | host meaning found runs =>
      rw [dispatchWith_of_word call meaning found, executeBodyWith, runs]
      exact Option.map_id'.symm

/-- A native action runs tokens of the host, or it acts in the same way whatever is called. -/
theorem exists_actWith (m : Machine) (action : Action) :
    (∃ source, action = .host (.run source)) ∨ ∃ o, ∀ call, actWith call m action = some o := by
  cases action with
  | core word => exact .inr ⟨_, fun _ => rfl⟩
  | console word => exact .inr ⟨_, fun _ => rfl⟩
  | host action =>
      cases action with
      | run source => exact .inl ⟨source, rfl⟩
      | push | countWords | fail | «forget» | define | noop => exact .inr ⟨_, fun _ => rfl⟩

/-- Every token acts or unfolds. -/
theorem acts_or_unfoldsTo (m : Machine) (token : String) :
    (∃ o, m.Acts token o) ∨ ∃ start tokens finish, m.UnfoldsTo token start tokens finish := by
  cases meaning : Token.classify token with
  | number x => exact .inl ⟨_, .numeral meaning⟩
  | word name =>
      rw [Token.eq_of_classify meaning] at meaning
      cases found : m.dictionary.body? token with
      | none => exact .inl ⟨_, .missing meaning found⟩
      | some body =>
          cases body with
          | compiled tokens => exact .inr ⟨_, tokens, _, .compiled meaning found⟩
          | native native =>
              rcases exists_actWith (m.taken token) native.action with ⟨source, runs⟩ | ⟨o, acts⟩
              · exact .inr ⟨_, _, _, .host meaning found runs⟩
              · exact .inl ⟨o, .native meaning found acts⟩

/-- After a token that acts at once the run goes on. -/
theorem Acts.runTokens_cons {m : Machine} {token : String} {o : Outcome} (acts : m.Acts token o)
    (bound : Nat) (rest : List String) :
    m.runTokens bound (token :: rest) = o.andThen fun next => next.runTokens bound rest := by
  unfold Machine.runTokens
  rw [runTokensWith, acts.dispatchWith, Option.bind_some]

/-- A token that unfolds within no level of calls is given up; else its tokens run within one
level less. -/
theorem UnfoldsTo.runTokens_cons {m start : Machine} {token : String} {tokens : List String}
    {finish : Machine → Machine} (unfolds : m.UnfoldsTo token start tokens finish) (bound : Nat)
    (rest : List String) :
    m.runTokens bound (token :: rest) =
      (callWithin bound start tokens).bind fun o =>
        { o with machine := finish o.machine }.andThen fun next => next.runTokens bound rest := by
  unfold Machine.runTokens
  rw [runTokensWith, unfolds.dispatchWith, Option.bind_map]
  rfl

/-- The machine ends a run as the rules say. -/
theorem Runs.runTokens {bound : Nat} {m : Machine} {tokens : List String} {o : Outcome}
    (runs : Runs bound m tokens o) : m.runTokens bound tokens = some o := by
  induction runs with
  | done m => rfl
  | act acts _ ih =>
      rw [acts.runTokens_cons]
      exact ih
  | actFails acts =>
      rw [acts.runTokens_cons]
      rfl
  | @call bound _ start _ _ tokens _ _ _ unfolds _ _ called ih =>
      have reached : callWithin (bound + 1) start tokens = _ := called
      rw [unfolds.runTokens_cons, reached]
      exact ih
  | @callFails bound _ start _ _ tokens _ _ _ unfolds _ called =>
      have reached : callWithin (bound + 1) start tokens = _ := called
      rw [unfolds.runTokens_cons, reached]
      rfl

/-- The rules give every run that ends. -/
theorem runs_of_runTokens {bound : Nat} {m : Machine} {tokens : List String} {o : Outcome}
    (ended : m.runTokens bound tokens = some o) : Runs bound m tokens o := by
  -- Calls use up the bound, and between them the tokens get fewer.
  induction bound using Nat.strongRecOn generalizing m tokens o with
  | ind bound ih_bound =>
  induction tokens generalizing m with
  | nil =>
      cases ended
      exact .done m
  | cons token rest ih =>
      rcases acts_or_unfoldsTo m token with ⟨⟨next, error⟩, acts⟩ | ⟨start, tokens, finish, unfolds⟩
      · rw [acts.runTokens_cons] at ended
        cases error with
        | none => exact .act acts (ih ended)
        | some error =>
            cases ended
            exact .actFails acts
      · rw [unfolds.runTokens_cons] at ended
        obtain ⟨⟨reached, error⟩, called, after⟩ := Option.bind_eq_some_iff.mp ended
        cases bound with
        | zero => cases called
        | succ bound =>
            have runs : Runs bound start tokens _ := ih_bound bound bound.lt_succ_self called
            cases error with
            | none => exact .call unfolds runs (ih after)
            | some error =>
                cases after
                exact .callFails unfolds runs

/-- **Runs by rules.** A machine ends a run of tokens within a bound exactly as the rules say. -/
theorem runTokens_eq_some_iff {bound : Nat} {m : Machine} {tokens : List String} {o : Outcome} :
    m.runTokens bound tokens = some o ↔ Runs bound m tokens o :=
  ⟨runs_of_runTokens, Runs.runTokens⟩

/-- What ends within a bound ends in the same way within every larger one. -/
theorem Runs.of_le {bound larger : Nat} {m : Machine} {tokens : List String} {o : Outcome}
    (runs : Runs bound m tokens o) (within : bound ≤ larger) : Runs larger m tokens o := by
  induction runs generalizing larger with
  | done m => exact .done m
  | act acts _ ih => exact .act acts (ih within)
  | actFails acts => exact .actFails acts
  | call unfolds _ _ ih_called ih =>
      obtain ⟨larger, rfl⟩ := Nat.exists_eq_add_of_le' (Nat.one_le_of_lt within)
      exact .call unfolds (ih_called (Nat.le_of_succ_le_succ within)) (ih within)
  | callFails unfolds _ ih_called =>
      obtain ⟨larger, rfl⟩ := Nat.exists_eq_add_of_le' (Nat.one_le_of_lt within)
      exact .callFails unfolds (ih_called (Nat.le_of_succ_le_succ within))

/-! ## How deep calls are -/

/-- An action that calls nothing leaves the trace as it is. -/
theorem traceState_actWith {m : Machine} {action : Action} {o : Outcome}
    (acts : ∀ call, actWith call m action = some o) : o.machine.traceState = m.traceState := by
  have acted := acts fun _ _ => none
  cases action with
  | core word =>
      cases acted
      exact (blind_onStack word.run).traceState_eq m
  | console word =>
      cases acted
      exact (blind_consoleWord word).traceState_eq m
  | host action =>
      cases action with
      | run source => cases acted
      | push | countWords =>
          cases acted
          exact (blind_onStack _).traceState_eq m
      | fail | noop =>
          cases acted
          rfl
      | «forget» name =>
          cases acted
          exact (blind_forget name).traceState_eq m
      | define name tokens =>
          cases acted
          exact (blind_define name _).traceState_eq m

/-- A token that acts changes the trace only by being recorded. -/
theorem Acts.traceState_eq {m : Machine} {token : String} {o : Outcome} (acts : m.Acts token o) :
    o.machine.traceState = (m.record token).traceState := by
  cases acts with
  | numeral meaning => exact (blind_onStack _).traceState_eq _
  | missing meaning unknown => rfl
  | native meaning found acts =>
      have counted : (m.taken token).traceState = (m.record token).traceState := rfl
      exact (traceState_actWith acts).trans counted

theorem record_callDepth (m : Machine) (token : String) :
    (m.record token).callDepth = m.callDepth := by
  unfold record
  split <;> rfl

/-- A token that acts at once is not left in the middle of a call. -/
theorem Acts.callDepth_eq {m : Machine} {token : String} {o : Outcome} (acts : m.Acts token o) :
    o.machine.callDepth = m.callDepth :=
  (congrArg TraceState.depth acts.traceState_eq).trans (record_callDepth m token)

/-- What a token runs is at most one level deeper, and its end takes back what its start added. -/
theorem UnfoldsTo.callDepth {m start : Machine} {token : String} {tokens : List String}
    {finish : Machine → Machine} (unfolds : m.UnfoldsTo token start tokens finish) :
    start.callDepth ≤ m.callDepth + 1 ∧
      ∀ reached, reached.callDepth = start.callDepth →
        (finish reached).callDepth = m.callDepth := by
  have recorded := record_callDepth m token
  cases unfolds with
  | compiled meaning found =>
      have entered : (m.taken token).enter.callDepth = m.callDepth + 1 :=
        congrArg (· + 1) recorded
      rw [entered]
      refine ⟨Nat.le_refl _, fun reached same => ?_⟩
      change reached.callDepth - 1 = m.callDepth
      rw [same, Nat.add_sub_cancel]
  | host meaning found runs =>
      have same : (m.taken token).callDepth = m.callDepth := recorded
      rw [same]
      exact ⟨Nat.le_succ _, fun _ kept => kept⟩

/-- A run ends as many calls deep as it started, also when it fails. -/
theorem Runs.callDepth_eq {bound : Nat} {m : Machine} {tokens : List String} {o : Outcome}
    (runs : Runs bound m tokens o) : o.machine.callDepth = m.callDepth := by
  induction runs with
  | done m => rfl
  | act acts _ ih => exact ih.trans acts.callDepth_eq
  | actFails acts => exact acts.callDepth_eq
  | call unfolds _ _ ih_called ih => exact ih.trans (unfolds.callDepth.2 _ ih_called)
  | callFails unfolds _ ih_called => exact unfolds.callDepth.2 _ ih_called

/-- Every entry of the trace is an old one or was recorded at most `limit` calls deep. -/
def TracedWithin (old : List TraceEntry) (limit : Nat) (m : Machine) : Prop :=
  ∀ entry ∈ m.trace, entry ∈ old ∨ entry.depth ≤ limit

section TracedWithin

variable {old : List TraceEntry} {limit : Nat} {m : Machine}

/-- A token that is dispatched within the limit is traced within it. -/
theorem TracedWithin.record (traced : m.TracedWithin old limit) (fits : m.callDepth ≤ limit)
    (token : String) : (m.record token).TracedWithin old limit := by
  intro entry member
  unfold Machine.record extendTrace at member
  split at member
  · split at member
    · exact traced entry member
    · rcases List.mem_append.mp member with earlier | new
      · apply traced
        split at earlier
        · exact List.mem_of_mem_drop earlier
        · exact earlier
      · rw [List.mem_singleton.mp new]
        exact .inr fits
  · exact traced entry member

/-- What acts at once traces its own token at most. -/
theorem Acts.tracedWithin {token : String} {o : Outcome} (acts : m.Acts token o)
    (traced : m.TracedWithin old limit) (fits : m.callDepth ≤ limit) :
    o.machine.TracedWithin old limit := by
  have same : o.machine.trace = (m.record token).trace :=
    congrArg TraceState.entries acts.traceState_eq
  unfold TracedWithin
  rw [same]
  exact traced.record fits token

/-- A call traces its own token before it starts and nothing when it ends. -/
theorem UnfoldsTo.trace_eq {start : Machine} {token : String} {tokens : List String}
    {finish : Machine → Machine} (unfolds : m.UnfoldsTo token start tokens finish) :
    start.trace = (m.record token).trace ∧ ∀ reached, (finish reached).trace = reached.trace := by
  cases unfolds <;> exact ⟨rfl, fun _ => rfl⟩

/-- A call starts with its own token traced within the limit. -/
theorem UnfoldsTo.tracedWithin {start : Machine} {token : String} {tokens : List String}
    {finish : Machine → Machine} (unfolds : m.UnfoldsTo token start tokens finish)
    (traced : m.TracedWithin old limit) (fits : m.callDepth ≤ limit) :
    start.TracedWithin old limit := by
  unfold TracedWithin
  rw [unfolds.trace_eq.1]
  exact traced.record fits token

end TracedWithin

/-- A run within a bound dispatches no token deeper than the bound allows. -/
theorem Runs.tracedWithin {bound : Nat} {m : Machine} {tokens : List String} {o : Outcome}
    (runs : Runs bound m tokens o) {old : List TraceEntry} {limit : Nat}
    (traced : m.TracedWithin old limit) (fits : m.callDepth + bound ≤ limit) :
    o.machine.TracedWithin old limit := by
  induction runs with
  | done m => exact traced
  | @act _ m next _ _ _ acts _ ih =>
      have depth : next.callDepth = m.callDepth := acts.callDepth_eq
      apply ih
      · exact acts.tracedWithin traced (Nat.le_of_add_right_le fits)
      · rw [depth]
        exact fits
  | actFails acts => exact acts.tracedWithin traced (Nat.le_of_add_right_le fits)
  | @call _ m _ reached _ _ _ finish _ unfolds called _ ih_called ih =>
      obtain ⟨deeper, back⟩ := unfolds.callDepth
      have depth : (finish reached).callDepth = m.callDepth := back _ called.callDepth_eq
      apply ih
      · unfold TracedWithin
        rw [unfolds.trace_eq.2]
        exact ih_called (unfolds.tracedWithin traced (Nat.le_of_add_right_le fits)) (by omega)
      · rw [depth]
        exact fits
  | callFails unfolds _ ih_called =>
      obtain ⟨deeper, _⟩ := unfolds.callDepth
      unfold TracedWithin
      rw [show (Machine.failed _ _).machine.trace = _ from unfolds.trace_eq.2 _]
      exact ih_called (unfolds.tracedWithin traced (Nat.le_of_add_right_le fits)) (by omega)

end Machine

end WordMachine
