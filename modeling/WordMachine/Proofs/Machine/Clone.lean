import WordMachine.Proofs.Machine.Bounds
import WordMachine.Proofs.Machine.Tracing
import WordMachine.Proofs.Snapshot.Restore
import WordMachine.Snapshot.Save

/-! # Copies of a machine

A copy is made by defining every word and pushing every value again. For a machine that a
host can reach none of this fails, cuts or reorders anything: the copy is the machine itself
without its trace. What a host asks of the copy is therefore answered as the machine answers
it, over any number of requests, also with host functions behind native words that do not read
the trace.
-/

namespace WordMachine

/-! ## Requests and replies -/

/-- What a host gets back from an operation, beside the machine that it leaves. -/
inductive Reply where
  | done
  | value (v : Value)
  | word (w : Word)
  | saved (s : Snapshot)
  | failed (error : Error)
  | notLoaded (error : Source.LoadError)

/-- What a host asks of a machine, its trace apart: an operation, a snapshot, or to go on
with another clock and console. -/
inductive Request where
  | operation (operation : HostOperation)
  | save
  | environment (clock : Instant) (console : Console)

/-- The reply to an operation that ended, and its machine. -/
def Outcome.answer (o : Outcome) : Reply × Machine :=
  (o.error.elim .done .failed, o.machine)

/-- The reply to a load that ended, and its machine. -/
def Source.Loaded.answer (loaded : Source.Loaded) : Reply × Machine :=
  (loaded.error.elim .done .notLoaded, loaded.machine)

namespace Machine

/-- Performs an operation and replies; none if a run or load does not end within its
bound. -/
def answer (m : Machine) : HostOperation → Option (Reply × Machine)
  | .push v => some (m.push v).answer
  | .pop =>
    match m.data.pop with
    | .ok (v, data) => some (.value v, { m with data })
    | .error error => some (.failed error, m)
  | .run bound source => (m.run bound source).map Outcome.answer
  | .load bound source => (m.load bound source).map Source.Loaded.answer
  | .execute bound name => (m.execute bound name).map Outcome.answer
  | .executeWord bound word => (m.executeWord bound word).map Outcome.answer
  | .dispatch bound token => (m.dispatch bound token).map Outcome.answer
  | .define name definition => some (m.define name definition).answer
  | .forget name =>
    match m.dictionary.forget name with
    | .ok (word, dictionary) => some (.word word, { m with dictionary })
    | .error error => some (.failed error, m)
  | .install identity parts => some (Library.install identity parts m).answer
  | .restore s => some (m.restore s).answer
  | .setTracing on => some (.done, m.setTracing on)
  | .clearTrace => some (.done, m.clearTrace)

/-- Performs an operation and replies where the given functions are behind the native words. -/
def Natives.answer (natives : Natives) (m : Machine) : HostOperation → Option (Reply × Machine)
  | .run bound source =>
    (natives.interpret bound m (.run (Text.words source))).map Outcome.answer
  | .load bound source => ((natives.interpret bound).load m source).map Source.Loaded.answer
  | .execute bound name => (natives.interpret bound m (.execute name)).map Outcome.answer
  | .executeWord bound word =>
    (natives.interpret bound m (.executeBody word.body)).map Outcome.answer
  | .dispatch bound token => (natives.interpret bound m (.dispatch token)).map Outcome.answer
  | operation => m.answer operation

namespace Natives

/-- With its own native words, a machine answers operations as it does. -/
theorem answer_own (m : Machine) (operation : HostOperation) :
    own.answer m operation = m.answer operation := by
  cases operation with
  | load bound source =>
      change ((own.interpret bound).load m source).map _ = _
      rw [load_own]
      rfl
  | run | execute | executeWord | dispatch =>
      change (own.interpret _ m _).map _ = _
      rw [interpret_own]
      rfl
  | push | pop | define | «forget» | install | restore | setTracing | clearTrace => rfl

variable (natives : Natives)

/-- An answer leaves the machine that the operation leaves. -/
theorem perform_eq_answer (m : Machine) (operation : HostOperation) :
    natives.perform m operation = (natives.answer m operation).map Prod.snd := by
  cases operation with
  | pop =>
      simp only [perform, answer, Machine.perform, Machine.answer, popped, onStack, bind,
        EStateM.bind, StackM.pop]
      cases m.data.pop <;> rfl
  | «forget» name =>
      simp only [perform, answer, Machine.perform, Machine.answer, forget]
      cases m.dictionary.forget name <;> rfl
  | run | load | execute | executeWord | dispatch =>
      simp only [perform, answer, Option.map_map]
      rfl
  | push | define | install | restore | setTracing | clearTrace => rfl

/-- Does what a host asks and replies. -/
def respond (m : Machine) : Request → Option (Reply × Machine)
  | .operation operation => natives.answer m operation
  | .save => some (.saved m.save, m)
  | .environment clock console => some (.done, { m with clock, console })

/-- Responds to requests in order: all replies, and the machine that is left. -/
def serve (m : Machine) : List Request → Option (List Reply × Machine)
  | [] => some ([], m)
  | request :: rest =>
    (natives.respond m request).bind fun (reply, next) =>
      (serve next rest).map fun (replies, last) => (reply :: replies, last)

end Natives

/-! ## Alike answers -/

/-- Whatever the first machine answers, the second answers too and leaves a related
machine. -/
def AnswersAlike {α : Type} (R : Machine → Machine → Prop) (first second : Option (α × Machine)) :
    Prop :=
  ∀ reply next, first = some (reply, next) → ∃ next', second = some (reply, next') ∧ R next next'

section AnswersAlike

variable {R : Machine → Machine → Prop}

theorem answersAlike_some {α : Type} {reply : α} {next next' : Machine} (related : R next next') :
    AnswersAlike R (some (reply, next)) (some (reply, next')) := by
  rintro _ _ ⟨⟩
  exact ⟨next', rfl, related⟩

theorem EndAlike.answersAlike {o o' : Outcome} (alike : EndAlike R o o') :
    AnswersAlike R (some o.answer) (some o'.answer) := by
  unfold Outcome.answer
  rw [alike.error]
  exact answersAlike_some alike.machine

theorem Follows.answersAlike {first second : Option Outcome}
    (follows : Follows (fun _ => False) R first second) :
    AnswersAlike R (first.map Outcome.answer) (second.map Outcome.answer) := by
  intro reply next ended
  obtain ⟨o, reached, answered⟩ := Option.map_eq_some_iff.mp ended
  obtain ⟨o', reached', alike⟩ := follows.exists_endAlike reached
  rw [reached', Option.map_some]
  exact alike.answersAlike reply next (congrArg some answered)

theorem LoadFollows.answersAlike {first second : Option Source.Loaded}
    (follows : LoadFollows (fun _ => False) R first second) :
    AnswersAlike R (first.map Source.Loaded.answer) (second.map Source.Loaded.answer) := by
  intro reply next ended
  obtain ⟨loaded, reached, answered⟩ := Option.map_eq_some_iff.mp ended
  obtain ⟨loaded', reached', alike⟩ := follows.exists_endAlike reached
  cases answered
  refine ⟨loaded'.machine, ?_, alike.machine⟩
  rw [reached', Option.map_some, Source.Loaded.answer, alike.error]

end AnswersAlike

namespace SameButTrace

variable {limit limit' : Nat} {natives : Natives}
  (blind : natives.OwnOr (NativeFunction.Respects (fun _ => False) (SameButTrace limit limit')))
  {m m' : Machine}

theorem dictionary_eq (same : SameButTrace limit limit' m m') : m'.dictionary = m.dictionary := by
  obtain ⟨rfl, _, _, _, rfl⟩ := same
  rfl

include blind

/-- Machines that differ in their traces alone answer an operation alike. -/
theorem answer (same : SameButTrace limit limit' m m') (operation : HostOperation) :
    AnswersAlike (SameButTrace limit limit') (natives.answer m operation)
      (natives.answer m' operation) := by
  have asked := fun bound (invocation : Invocation) =>
    (simulation_sameButTrace limit limit').interpret dictionary_eq blind bound same invocation
  cases operation with
  | run bound source => exact (asked bound _).answersAlike
  | execute bound name => exact (asked bound _).answersAlike
  | executeWord bound word => exact (asked bound _).answersAlike
  | dispatch bound token => exact (asked bound _).answersAlike
  | load bound source =>
      exact ((simulation_sameButTrace limit limit').load_of_host dictionary_eq blind bound same
        source).answersAlike
  | push v => exact (same.blind (blind_onStack (StackM.push v))).answersAlike
  | pop =>
      obtain ⟨rfl, on, entries, depth, rfl⟩ := same
      have data : (m.retraced ⟨limit', on, entries, depth⟩).data = m.data := rfl
      simp only [Natives.answer, Machine.answer]
      rw [data]
      split <;> exact answersAlike_some ⟨rfl, on, entries, depth, rfl⟩
  | define name definition => exact (same.blind (blind_define name definition)).answersAlike
  | «forget» name =>
      obtain ⟨rfl, on, entries, depth, rfl⟩ := same
      have dictionary : (m.retraced ⟨limit', on, entries, depth⟩).dictionary = m.dictionary := rfl
      simp only [Natives.answer, Machine.answer]
      rw [dictionary]
      split <;> exact answersAlike_some ⟨rfl, on, entries, depth, rfl⟩
  | install identity parts =>
      exact (same.blind (blind_defineAll (Library.words identity parts))).answersAlike
  | restore s => exact (same.blind (blind_restore s)).answersAlike
  | setTracing on =>
      obtain ⟨rfl, _, entries, depth, rfl⟩ := same
      exact answersAlike_some ⟨rfl, on, entries, depth, rfl⟩
  | clearTrace =>
      obtain ⟨rfl, on, _, depth, rfl⟩ := same
      exact answersAlike_some ⟨rfl, on, [], depth, rfl⟩

theorem respond (same : SameButTrace limit limit' m m') (request : Request) :
    AnswersAlike (SameButTrace limit limit') (natives.respond m request)
      (natives.respond m' request) := by
  cases request with
  | operation operation => exact answer blind same operation
  | save =>
      have saved : m'.save = m.save := by
        obtain ⟨_, _, _, _, rfl⟩ := same
        rfl
      rw [Natives.respond, Natives.respond, saved]
      exact answersAlike_some same
  | environment clock console =>
      obtain ⟨rfl, on, entries, depth, rfl⟩ := same
      exact answersAlike_some ⟨rfl, on, entries, depth, rfl⟩

/-- Machines that differ in their traces alone serve requests alike, by induction on the
requests. -/
theorem serve (same : SameButTrace limit limit' m m') (requests : List Request) :
    AnswersAlike (SameButTrace limit limit') (natives.serve m requests)
      (natives.serve m' requests) := by
  induction requests generalizing m m' with
  | nil => exact answersAlike_some same
  | cons request rest ih =>
      intro replies last served
      obtain ⟨⟨reply, next⟩, first, remaining⟩ := Option.bind_eq_some_iff.mp served
      obtain ⟨⟨later, _⟩, reached, pair⟩ := Option.map_eq_some_iff.mp remaining
      cases pair
      obtain ⟨next', first', related⟩ := respond blind same request reply next first
      obtain ⟨last', reached', alike⟩ := ih related later last reached
      refine ⟨last', ?_, alike⟩
      simp only [Natives.serve, first', Option.bind_some, reached', Option.map_some]

end SameButTrace

/-! ## The copy -/

/-- The machine with tracing off, an empty trace and no compiled body in progress. -/
def untraced (m : Machine) : Machine :=
  { m with tracing := false, trace := [], callDepth := 0 }

theorem sameButTrace_untraced (m : Machine) :
    SameButTrace m.config.traceLimit m.config.traceLimit m m.untraced :=
  ⟨rfl, false, [], 0, rfl⟩

theorem SameButTrace.untraced_eq {limit : Nat} {m m' : Machine}
    (same : SameButTrace limit limit m m') : m'.untraced = m.untraced := by
  obtain ⟨rfl, _, _, _, rfl⟩ := same
  rfl

/-- Pushing the values of a stack that fits on an empty one makes it again. -/
theorem pushAll_toList {s : Stack} {name : String} {limit : Nat} {good : Value → Prop}
    (sound : s.Sound name limit good) :
    StackM.pushAll s.toList (.empty name limit) = .ok () s := by
  have room : (Stack.empty name limit).depth + s.toList.length ≤ limit := by
    simpa [Stack.empty, Stack.depth, Stack.toList] using sound.fits
  rw [StackM.pushAll_eq s.toList (.empty name limit) room]
  obtain ⟨rfl, rfl, _, _⟩ := sound
  simp [Stack.empty, Stack.toList]

/-- A machine with distinct names that has its bounds is copied without its trace. -/
theorem clone_eq {config : Config} {m : Machine} (named : m.dictionary.WellNamed)
    (fits : m.Fits config) : m.clone = .ok m.untraced := by
  obtain ⟨rfl, data, returns, _⟩ := fits
  have empty : m.returns.Sound "return" m.config.returnStackDepth fun _ => True := by
    rw [returns]
    exact sound_empty _ _
  simp only [clone, ofConfig, named.duplicate_eq, bind, Except.bind, pushAll_toList data,
    pushAll_toList empty]
  rfl

/-- **Copies are total and faithful.** Every machine that is reached has a copy: the machine
itself with tracing off and no trace. Requests to the copy get the replies that the machine
gives, none where it gives none, and leave the two equal up to their traces. So it is with the
machine's own native words and with host functions behind them that do not read the trace. -/
theorem clone_faithful {config : Config} {m : Machine} (reachable : Reachable config m) :
    m.clone = .ok m.untraced ∧
      ∀ natives : Natives,
        natives.OwnOr (NativeFunction.Respects (fun _ => False)
          (SameButTrace m.config.traceLimit m.config.traceLimit)) →
        ∀ requests, (natives.serve m.untraced requests).map (Prod.map id untraced) =
          (natives.serve m requests).map (Prod.map id untraced) := by
  refine ⟨clone_eq reachable.wellNamed reachable.fits, fun natives blind requests => ?_⟩
  have same := sameButTrace_untraced m
  cases served : natives.serve m requests with
  | some p =>
      obtain ⟨last, reached, alike⟩ := same.serve blind requests p.1 p.2 served
      rw [reached, Option.map_some, Option.map_some, Prod.map, alike.untraced_eq]
      rfl
  | none =>
      -- Where the copy had an answer the machine would have it too: the relation is symmetric.
      cases reached : natives.serve m.untraced requests with
      | none => rfl
      | some p =>
          obtain ⟨last, served', _⟩ := same.symm.serve blind requests p.1 p.2 reached
          rw [served] at served'
          cases served'

/-- A traced machine with a protected native word and a word that keeps two versions where
the limit is one. It is asked to run the word, to redefine the protected one, for a snapshot
and for more values than it has. -/
theorem clone_faithful_of_long_history :
    let config : Config := { Config.default with historyLimit := 1 }
    let version (token : String) : Revision :=
      ⟨(Definition.ofTokens [token]).toWord "X" .millennium, .millennium⟩
    let native : Definition :=
      { body := .native ⟨7, .host (.push (.bool true))⟩, isProtected := true }
    let compiled : Definition :=
      { Definition.ofTokens ["N"] with
        metadata := some ⟨.millennium, 0, none, [version "A", version "B"]⟩ }
    let start := (((ofConfig config .millennium).define "N" native).machine.define "X"
      compiled).machine.setTracing true
    let requests : List Request :=
      [.operation (.run 2 "X"), .operation (.define "N" {}), .save, .operation .pop,
        .operation .pop, .operation .pop]
    ∃ m, start.perform (.run 2 "X") = some m ∧ m.trace.map TraceEntry.token = ["X", "N"] ∧
      (m.dictionary.find? "X").map (fun w => (w.history.length, w.usage)) = some (2, 1) ∧
      m.clone = .ok m.untraced ∧
      (Natives.own.serve m requests).map (fun p => p.2.data.depth) = some 0 ∧
      (Natives.own.serve m.untraced requests).map (Prod.map id untraced) =
        (Natives.own.serve m requests).map (Prod.map id untraced) := by
  intro config version native compiled start requests
  have reachable : Reachable config start :=
    (((Reachable.initial .millennium).step (.define "N" native) rfl).step (.define "X" compiled)
      rfl).step (.setTracing true) rfl
  have ended : (start.perform (.run 2 "X")).map (fun m =>
      (m.trace.map TraceEntry.token,
        (m.dictionary.find? "X").map (fun w => (w.history.length, w.usage)),
        (Natives.own.serve m requests).map (fun p => p.2.data.depth))) =
      some (["X", "N"], some (2, 1), some 0) := by
    decide +kernel
  obtain ⟨m, performed, values⟩ := Option.map_eq_some_iff.mp ended
  simp only [Prod.mk.injEq] at values
  obtain ⟨trace, word, served⟩ := values
  obtain ⟨cloned, alike⟩ := clone_faithful (reachable.step (.run 2 "X") performed)
  exact ⟨m, performed, trace, word, cloned, served, alike _ (fun _ => .inl rfl) requests⟩

end Machine

end WordMachine
