import WordMachine.Console
import WordMachine.Core

/-! # Core and console words on two stacks

A relation between stacks that pushing, popping and looking at the top keep is kept by every word
that does no more than that. The second stack gives the same results, unless the first stops with
an error that the comparison excuses. Words that see the whole stack are left to each relation:
`DEPTH`, `CLEAR` and `.S`.
-/

namespace WordMachine

namespace StackM

variable {excuse : Error → Prop} {S : Stack → Stack → Prop}

/-- On related stacks a computation ends alike, with the same result or error, or it stops with
an error that is excused. -/
def Relates {α : Type} (excuse : Error → Prop) (S : Stack → Stack → Prop)
    (computation : StackM α) : Prop :=
  ∀ ⦃s s'⦄, S s s' →
    match computation s with
    | .ok a next => ∃ next', computation s' = .ok a next' ∧ S next next'
    | .error error next =>
      excuse error ∨ ∃ next', computation s' = .error error next' ∧ S next next'

/-- A result that is given without a step is the same on both stacks. -/
theorem Relates.pure {α : Type} (a : α) : Relates excuse S (pure a : StackM α) :=
  fun _ s' related => ⟨s', rfl, related⟩

/-- An error that is thrown is the same on both stacks. -/
theorem Relates.throw {α : Type} (error : Error) : Relates excuse S (throw error : StackM α) :=
  fun _ s' related => .inr ⟨s', rfl, related⟩

/-- Computations that end alike do so one after the other. -/
theorem Relates.bind {α β : Type} {first : StackM α} {next : α → StackM β}
    (relates : Relates excuse S first) (continued : ∀ a, Relates excuse S (next a)) :
    Relates excuse S (first >>= next) := by
  intro s s' related
  have after := relates related
  simp only [Bind.bind, EStateM.bind]
  cases reached : first s with
  | ok a middle =>
      rw [reached] at after
      obtain ⟨middle', reached', kept⟩ := after
      rw [reached']
      exact continued a kept
  | error error middle =>
      rw [reached] at after
      apply Or.imp_right _ after
      intro ⟨middle', reached', kept⟩
      rw [reached']
      exact ⟨middle', rfl, kept⟩

/-- A relation between stacks that the accesses to their tops keep. -/
structure KeptByAccess (excuse : Error → Prop) (S : Stack → Stack → Prop) : Prop where
  push : ∀ v, Relates excuse S (StackM.push v)
  pop : Relates excuse S StackM.pop
  peek : Relates excuse S StackM.peek

namespace KeptByAccess

variable (kept : KeptByAccess excuse S)

include kept

/-- Both stacks give the same number, or the same complaint about what they give. -/
theorem popNumber (word : String) : Relates excuse S (StackM.popNumber word) := by
  apply kept.pop.bind
  intro v
  cases v with
  | number x => exact .pure x
  | text | bool | handle | nil => exact .throw _

/-- Both stacks give the same truth value, or the same complaint about what they give. -/
theorem popBool (word : String) : Relates excuse S (StackM.popBool word) := by
  apply kept.pop.bind
  intro v
  cases v with
  | bool b => exact .pure b
  | number | text | handle | nil => exact .throw _

/-- Several pushes are pushes one after the other. -/
theorem pushAll (values : List Value) : Relates excuse S (StackM.pushAll values) := by
  induction values with
  | nil => exact .pure ()
  | cons v rest ih => exact (kept.push v).bind fun _ => ih

/-- A word on two numbers pops, pops and pushes. -/
theorem onNumbers (word : CoreWord) (f : Float → Float → Value) :
    Relates excuse S (CoreWord.onNumbers word f) :=
  (kept.popNumber _).bind fun b => (kept.popNumber _).bind fun a => kept.push (f a b)

/-- A word on one number pops and pushes. -/
theorem onNumber (word : CoreWord) (f : Float → Value) :
    Relates excuse S (CoreWord.onNumber word f) :=
  (kept.popNumber _).bind fun a => kept.push (f a)

/-- A word on two truth values pops, pops and pushes. -/
theorem onBools (word : CoreWord) (f : Bool → Bool → Bool) :
    Relates excuse S (CoreWord.onBools word f) :=
  (kept.popBool _).bind fun b => (kept.popBool _).bind fun a => kept.push (.bool (f a b))

/-- A word on any two values pops, pops and pushes what it makes of them. -/
theorem onPair (f : Value → Value → List Value) : Relates excuse S (CoreWord.onPair f) :=
  kept.pop.bind fun b => kept.pop.bind fun a => kept.pushAll (f a b)

/-- A core word that does not see the whole stack. -/
theorem coreWord {word : CoreWord} (not_depth : word ≠ .depth) (not_clear : word ≠ .clear) :
    Relates excuse S word.run := by
  cases word with
  | add | subtract | multiply | divide | modulo | minimum | maximum | less | greater | atMost
  | atLeast => exact kept.onNumbers _ _
  | negate | absolute | isZero => exact kept.onNumber _ _
  | both | either => exact kept.onBools _ _
  | negation => exact (kept.popBool _).bind fun a => kept.push (.bool !a)
  | pushTrue | pushFalse | pushNil => exact kept.push _
  | equal | unequal | swap | «over» | nip | tuck | twoDup | twoDrop => exact kept.onPair _
  | dup => exact kept.peek.bind kept.push
  | drop => exact kept.pop.bind fun _ => .pure ()
  | rot =>
      exact kept.pop.bind fun c => kept.pop.bind fun b => kept.pop.bind fun a =>
        kept.pushAll [b, c, a]
  | twoSwap =>
      exact kept.pop.bind fun d => kept.pop.bind fun c => kept.pop.bind fun b =>
        kept.pop.bind fun a => kept.pushAll [c, d, a, b]
  | depth => exact (not_depth rfl).elim
  | clear => exact (not_clear rfl).elim

/-- The text of a console word that does not see the whole stack. -/
theorem consoleText {word : ConsoleWord} (not_printStack : word ≠ .printStack)
    (names : List String) : Relates excuse S (word.text names) := by
  cases word with
  | print => exact kept.pop.bind fun v => .pure _
  | emit => exact (kept.popNumber _).bind fun code => .pure _
  | newline | space | words => exact .pure _
  | printStack => exact (not_printStack rfl).elim

end KeptByAccess

end StackM

end WordMachine
