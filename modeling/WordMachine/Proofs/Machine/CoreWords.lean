import WordMachine.Proofs.Library
import WordMachine.Proofs.Machine.Capacity
import WordMachine.Proofs.Machine.Unfolding
import WordMachine.Proofs.StackEffect

/-! # Core words on a machine

A machine that executes a core word meets the effect that the word declares, near both ends of its
data stack (`Machine.execute_meetsEffect`). A word that finds no room for its outputs has taken
its inputs by then, and leaves as many outputs as fit in their place. For most words these are the
inputs; `TUCK` and `2DUP` are the exceptions (`CoreWord.Spills`).
-/

namespace WordMachine

namespace CoreWord

/-! ## Declared effects -/

/-- An execution meets the effect that a core word declares: it succeeds exactly if the inputs are
there, are of the right types and leave room for the outputs; then as many outputs as are declared
stand where the inputs stood, and otherwise nothing below the inputs is touched. -/
structure MeetsEffect (word : CoreWord) (before : Stack) (error : Option Error)
    (after : Stack) : Prop where
  succeeds_iff : error = none ↔
    word.inputCount ≤ before.depth ∧
      (∀ v ∈ before.top word.inputCount, word.accepts v = true) ∧
      before.depth - word.inputCount + word.outputCount ≤ before.limit
  leaves : error = none → ∃ outputs,
    after.toList = before.below word.inputCount ++ outputs ∧
      outputs.length = word.outputCount ∧ word.Leaves (before.top word.inputCount) outputs
  spares : error ≠ none → word.inputCount ≤ before.depth →
    before.below word.inputCount <+: after.toList ∧ after.depth ≤ before.limit

theorem meetsEffect_onStack {word : CoreWord} (not_depth : word ≠ .depth)
    (not_clear : word ≠ .clear) {m : Machine} (within : m.data.depth ≤ m.data.limit) :
    word.MeetsEffect m.data (m.onStack word.run).error (m.onStack word.run).machine.data := by
  have ends := ends_run not_depth not_clear within
  unfold Machine.onStack
  generalize word.run m.data = result at ends ⊢
  cases ends with
  | short few _ =>
      exact
        { succeeds_iff := ⟨nofun, fun ⟨enough, _, _⟩ => absurd enough (Nat.not_le.mpr few)⟩
          leaves := nofun
          spares := fun _ enough => absurd enough (Nat.not_le.mpr few) }
  | @refused _ left v enough member wrong fewer _ =>
      refine
        { succeeds_iff := ⟨nofun, fun ⟨_, accepted, _⟩ => ?_⟩
          leaves := nofun
          spares := fun _ _ => ⟨?_, ?_⟩ }
      · exact absurd (accepted v member) (ne_true_of_eq_false wrong)
      · exact ⟨left, (m.data.toList_replaceTop _ left).symm⟩
      · refine Nat.le_trans (Nat.le_of_eq (m.data.depth_replaceTop _ left)) ?_
        omega
  | made enough accepted fits =>
      refine
        { succeeds_iff := ⟨fun _ => ⟨enough, accepted, fits⟩, fun _ => rfl⟩
          leaves := fun _ => ⟨_, m.data.toList_replaceTop _ _, ?_, ?_⟩
          spares := fun failed => absurd rfl failed }
      · exact length_result not_depth not_clear (Stack.length_top enough) accepted
      · exact leaves_result (Stack.length_top enough) accepted
  | full enough accepted overflow =>
      refine
        { succeeds_iff := ⟨nofun, fun ⟨_, _, fits⟩ => absurd fits (Nat.not_le.mpr overflow)⟩
          leaves := nofun
          spares := fun _ _ => ⟨?_, ?_⟩ }
      · exact ⟨_, (m.data.toList_replaceTop _ _).symm⟩
      · refine Nat.le_trans (Nat.le_of_eq (m.data.depth_replaceTop _ _)) ?_
        rw [List.length_take]
        omega

end CoreWord

namespace Machine

theorem execute_of_core (bound : Nat) {m : Machine} {name : String} {identity : Nat}
    {word : CoreWord} (found : m.dictionary.body? name = some (.native ⟨identity, .core word⟩)) :
    m.execute bound name =
      some ({ m with dictionary := m.dictionary.counted name }.onStack word.run) :=
  executeWith_of_body _ found

/-- **Core words meet their declared effects.** Whatever name a core word other than `DEPTH` and
`CLEAR` has, executing it on a data stack of any bound ends, and it meets the effect that the word
declares. -/
theorem execute_meetsEffect (bound : Nat) {m : Machine} {name : String} {identity : Nat}
    {word : CoreWord} (found : m.dictionary.body? name = some (.native ⟨identity, .core word⟩))
    (not_depth : word ≠ .depth) (not_clear : word ≠ .clear)
    (within : m.data.depth ≤ m.data.limit) :
    ∃ o, m.execute bound name = some o ∧ word.MeetsEffect m.data o.error o.machine.data := by
  refine ⟨_, execute_of_core bound found, ?_⟩
  exact CoreWord.meetsEffect_onStack (m := { m with dictionary := m.dictionary.counted name })
    not_depth not_clear within

/-- The difference of the two numbers on top, in the order in which they were pushed, on a stack
that is full. -/
theorem execute_meetsEffect_of_difference :
    let m := { Library.bootstrapped 0 .default .millennium with
      data := ⟨"data", 3, [.number 3, .number 5, .text "below"]⟩ }
    ∃ o, m.execute 0 "-" = some o ∧ o.error = none ∧
      o.machine.data.toList = [.text "below", .number (5 - 3)] := by
  intro m
  have found : m.dictionary.body? "-" = some (.native ⟨1, .core .subtract⟩) := by decide +kernel
  obtain ⟨o, ended, meets⟩ := execute_meetsEffect 0 found nofun nofun (by decide)
  have succeeds : o.error = none := meets.succeeds_iff.mpr (by decide +kernel)
  obtain ⟨outputs, left, -, rfl⟩ := meets.leaves succeeds
  exact ⟨o, ended, succeeds, left.trans (by decide +kernel)⟩

end Machine

/-! ## Overflow -/

namespace CoreWord

/-- Where a core word that overflows changes the stack: `TUCK` above two different values leaves
them swapped, and `2DUP` with room for one value leaves a copy of the lower one. -/
def Spills (word : CoreWord) (s : Stack) : Prop :=
  (word = .tuck ∧ ∃ a b, s.top 2 = [a, b] ∧ a ≠ b) ∨ (word = .twoDup ∧ s.depth + 1 = s.limit)

theorem spills_tuck_iff {s : Stack} {a b : Value} (top : s.top 2 = [a, b]) :
    tuck.Spills s ↔ a ≠ b := by
  simp [Spills, top]

theorem spills_twoDup_iff {s : Stack} : twoDup.Spills s ↔ s.depth + 1 = s.limit := by
  simp [Spills]

theorem result_tuck (a b : Value) : tuck.result [a, b] = [b, a, b] := by
  simp [result, declared_eq, StackEffect.rearranged, List.lookup_cons]

theorem result_twoDup (a b : Value) : twoDup.result [a, b] = [a, b, a, b] := by
  simp [result, declared_eq, StackEffect.rearranged, List.lookup_cons]

/-- A word that leaves more than it takes puts one value on top of its inputs, unless it is `TUCK`
or `2DUP`. -/
theorem growing_cases {word : CoreWord} {inputs : List Value}
    (counted : inputs.length = word.inputCount) (grows : word.inputCount < word.outputCount) :
    ((word ≠ .tuck ∧ word ≠ .twoDup) ∧ word.outputCount = word.inputCount + 1 ∧
        inputs <+: word.result inputs) ∨
      (∃ a b, word = .tuck ∧ inputs = [a, b]) ∨ ∃ a b, word = .twoDup ∧ inputs = [a, b] := by
  rw [inputCount, outputCount, declared_eq] at grows
  rw [inputCount, declared_eq] at counted
  cases word with
  | add | subtract | multiply | divide | modulo | minimum | maximum | less | greater | atMost
  | atLeast | both | either | negate | absolute | isZero | negation | equal | unequal | drop | swap
  | rot | nip | twoDrop | twoSwap | clear => exact absurd grows (by decide)
  | pushTrue | pushFalse | pushNil | depth =>
      rw [List.length_eq_zero_iff.mp counted]
      exact .inl ⟨⟨by decide, by decide⟩, by decide +kernel, List.nil_prefix⟩
  | dup =>
      obtain ⟨x, rfl⟩ := List.length_eq_one_iff.mp counted
      refine .inl ⟨⟨by decide, by decide⟩, by decide +kernel, ?_⟩
      simp [result, declared_eq, StackEffect.rearranged]
  | «over» =>
      obtain ⟨a, b, rfl⟩ := List.length_eq_two.mp counted
      refine .inl ⟨⟨by decide, by decide⟩, by decide +kernel, ?_⟩
      simp [result, declared_eq, StackEffect.rearranged, List.lookup_cons]
  | tuck =>
      obtain ⟨a, b, rfl⟩ := List.length_eq_two.mp counted
      exact .inr (.inl ⟨a, b, rfl, rfl⟩)
  | twoDup =>
      obtain ⟨a, b, rfl⟩ := List.length_eq_two.mp counted
      exact .inr (.inr ⟨a, b, rfl, rfl⟩)

/-- The outputs that fit are the inputs, unless the word spills. -/
theorem take_result_eq_iff {word : CoreWord} {s : Stack} (within : s.depth ≤ s.limit)
    (enough : word.inputCount ≤ s.depth)
    (overflow : s.limit < s.depth - word.inputCount + word.outputCount) :
    (word.result (s.top word.inputCount)).take (s.limit - (s.depth - word.inputCount)) =
        s.top word.inputCount ↔
      ¬word.Spills s := by
  have counted := Stack.length_top enough
  rcases growing_cases counted (by omega) with
    ⟨⟨not_tuck, not_twoDup⟩, one_more, begins⟩ | ⟨a, b, rfl, top⟩ | ⟨a, b, rfl, top⟩
  · have fit : s.limit - (s.depth - word.inputCount) = (s.top word.inputCount).length := by
      omega
    rw [fit, ← List.prefix_iff_eq_take.mp begins]
    refine iff_of_true rfl ?_
    rintro (⟨rfl, _⟩ | ⟨rfl, _⟩)
    · exact not_tuck rfl
    · exact not_twoDup rfl
  · have inputs : tuck.inputCount = 2 := by decide +kernel
    have outputs : tuck.outputCount = 3 := by decide +kernel
    have fit : s.limit - (s.depth - tuck.inputCount) = 2 := by omega
    rw [fit, top, result_tuck, spills_tuck_iff (inputs ▸ top), not_not]
    refine ⟨fun same => (List.cons.inj same).1.symm, ?_⟩
    rintro rfl
    rfl
  · have inputs : twoDup.inputCount = 2 := by decide +kernel
    have outputs : twoDup.outputCount = 4 := by decide +kernel
    rw [top, result_twoDup, spills_twoDup_iff]
    constructor
    · intro same
      have lengths := congrArg List.length same
      simp only [List.length_take, List.length_cons, List.length_nil] at lengths
      omega
    · intro room
      have fit : s.limit - (s.depth - twoDup.inputCount) = 2 := by omega
      rw [fit]
      rfl

/-- An overflow leaves the stack as it was unless the word spills. -/
theorem run_overflow_iff {word : CoreWord} {s last : Stack} {stack : String} {limit : Nat}
    (within : s.depth ≤ s.limit)
    (failed : word.run s = .error (.stackOverflow stack limit) last) :
    last = s ↔ ¬word.Spills s := by
  by_cases is_depth : word = .depth
  · subst is_depth
    rw [run_depth] at failed
    exact iff_of_true (StackM.eq_of_push_error failed) (by simp [Spills])
  by_cases is_clear : word = .clear
  · subst is_clear
    cases failed
  have ends := ends_run is_depth is_clear within
  rw [failed] at ends
  cases ends with
  | short _ other => exact (other stack limit rfl).elim
  | refused _ _ _ _ other => exact (other stack limit rfl).elim
  | full enough _ overflow =>
      rw [Stack.replaceTop_eq_iff]
      exact take_result_eq_iff within enough overflow

end CoreWord

namespace Machine

/-- A computation on the data stack that fails leaves the stack that it reached. -/
theorem of_onStack_error {m : Machine} {computation : StackM Unit} {error : Error}
    (failed : (m.onStack computation).error = some error) :
    computation m.data = .error error (m.onStack computation).machine.data := by
  unfold onStack at failed ⊢
  cases ended : computation m.data with
  | ok _ stack =>
      rw [ended] at failed
      cases failed
  | error other stack =>
      rw [ended] at failed
      cases failed
      rfl

theorem data_onStack_overflow_iff {m : Machine} (within : m.data.depth ≤ m.data.limit)
    {word : CoreWord} {stack : String} {limit : Nat}
    (overflow : (m.onStack word.run).error = some (.stackOverflow stack limit)) :
    (m.onStack word.run).machine.data = m.data ↔ ¬word.Spills m.data :=
  CoreWord.run_overflow_iff within (of_onStack_error overflow)

/-- **What an overflow leaves.** When a numeral overflows the data stack, the stack is as it was.
When a core word does, executed by its name or dispatched as a token, the stack is as it was
exactly if the word does not spill: if it is neither `TUCK` above two different values nor `2DUP`
with room for one value. -/
theorem overflow_keeps_data_iff {bound : Nat} {m : Machine} {token : String} {o : Outcome}
    {stack : String} {limit : Nat} (within : m.data.depth ≤ m.data.limit)
    (overflow : o.error = some (.stackOverflow stack limit)) :
    (∀ x, Token.classify token = .number x → m.dispatch bound token = some o →
      o.machine.data = m.data) ∧
    ∀ identity word, m.dictionary.body? token = some (.native ⟨identity, .core word⟩) →
      m.execute bound token = some o ∨
        Token.classify token = .word token ∧ m.dispatch bound token = some o →
      (o.machine.data = m.data ↔ ¬word.Spills m.data) := by
  constructor
  · intro x meaning ended
    rw [dispatch, dispatchWith, meaning] at ended
    cases ended
    have kept := StackM.eq_of_push_error (of_onStack_error overflow)
    exact kept.trans (record_data m token)
  · rintro identity word found (ended | ⟨meaning, ended⟩)
    · rw [execute_of_core bound found] at ended
      cases ended
      exact data_onStack_overflow_iff (m := { m with dictionary := m.dictionary.counted token })
        within overflow
    · rw [dispatch, dispatchWith_of_word _ meaning found] at ended
      cases ended
      have same : (m.taken token).data = m.data := record_data m token
      rw [← same] at within ⊢
      exact data_onStack_overflow_iff within overflow

/-- On a full stack, a numeral and `2DUP` overflow and change nothing. -/
theorem overflow_keeps_data_iff_of_full :
    let m := { Library.bootstrapped 0 .default .millennium with
      data := ⟨"data", 2, [.number 2, .number 1]⟩ }
    (∃ o, m.dispatch 0 "3" = some o ∧ o.error = some (.stackOverflow "data" 2) ∧
      o.machine.data = m.data) ∧
    ∃ o, m.execute 0 "2DUP" = some o ∧ o.error = some (.stackOverflow "data" 2) ∧
      o.machine.data = m.data := by
  intro m
  have within : m.data.depth ≤ m.data.limit := by decide
  constructor
  · have fails : (m.dispatch 0 "3").map Outcome.error =
        some (some (.stackOverflow "data" 2)) := by
      decide +kernel
    obtain ⟨o, ended, overflow⟩ := Option.map_eq_some_iff.mp fails
    have meaning : Token.classify "3" = .number 3 := by decide +kernel
    exact ⟨o, ended, overflow, (overflow_keeps_data_iff within overflow).1 3 meaning ended⟩
  · have fails : (m.execute 0 "2DUP").map Outcome.error =
        some (some (.stackOverflow "data" 2)) := by
      decide +kernel
    obtain ⟨o, ended, overflow⟩ := Option.map_eq_some_iff.mp fails
    have found : m.dictionary.body? "2DUP" = some (.native ⟨29, .core .twoDup⟩) := by
      decide +kernel
    have fits : ¬CoreWord.twoDup.Spills m.data := by
      rw [CoreWord.spills_twoDup_iff]
      decide
    have kept := (overflow_keeps_data_iff within overflow).2 29 .twoDup found (.inl ended)
    exact ⟨o, ended, overflow, kept.mpr fits⟩

/-- Where three values fit, `2DUP` above two fails and leaves a third, and `TUCK` above three fails
and leaves the upper two swapped. -/
theorem overflow_changes_data :
    let config : Config := { Config.default with stackDepth := 3 }
    (∃ m o, Reachable config m ∧ m.data.toList = [.number 1, .number 2] ∧
      m.dispatch 0 "2DUP" = some o ∧ o.error = some (.stackOverflow "data" 3) ∧
      o.machine.data.toList = [.number 1, .number 2, .number 1]) ∧
    ∃ m o, Reachable config m ∧ m.data.toList = [.number 1, .number 2, .number 3] ∧
      m.dispatch 0 "TUCK" = some o ∧ o.error = some (.stackOverflow "data" 3) ∧
      o.machine.data.toList = [.number 1, .number 3, .number 2] := by
  intro config
  let start := Library.bootstrapped 0 config .millennium
  let two := ((start.push (.number 1)).machine.push (.number 2)).machine
  let three := (two.push (.number 3)).machine
  have bootstraps : Reachable config start := by
    refine (Reachable.initial .millennium).step (.install 0 Library.full) ?_
    rw [perform, Library.install_full]
    rfl
  have reaches_two : Reachable config two :=
    (bootstraps.step (.push (.number 1)) rfl).step (.push (.number 2)) rfl
  have reaches_three : Reachable config three := reaches_two.step (.push (.number 3)) rfl
  constructor
  · have fails : (two.dispatch 0 "2DUP").map (fun o => (o.error, o.machine.data.toList)) =
        some (some (.stackOverflow "data" 3), [.number 1, .number 2, .number 1]) := by
      decide +kernel
    obtain ⟨o, ended, left⟩ := Option.map_eq_some_iff.mp fails
    exact ⟨two, o, reaches_two, by decide +kernel, ended, Prod.mk.inj left⟩
  · have fails : (three.dispatch 0 "TUCK").map (fun o => (o.error, o.machine.data.toList)) =
        some (some (.stackOverflow "data" 3), [.number 1, .number 3, .number 2]) := by
      decide +kernel
    obtain ⟨o, ended, left⟩ := Option.map_eq_some_iff.mp fails
    exact ⟨three, o, reaches_three, by decide +kernel, ended, Prod.mk.inj left⟩

end Machine

end WordMachine
