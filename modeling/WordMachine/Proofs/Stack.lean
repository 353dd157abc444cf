import WordMachine.Console
import WordMachine.Core

/-! # What core and console words keep of a stack

A word leaves the name and the bound of its stack as they are, never puts more values on
it than fit, and only puts back values that it took or made. What holds of the values on a
stack and of all that words make therefore holds after every word, also after one that
failed on the way.
-/

namespace WordMachine

/-- A stack with a name and a bound whose values fit and are good. -/
structure Stack.Sound (name : String) (limit : Nat) (good : Value → Prop) (s : Stack) : Prop where
  called : s.name = name
  bound : s.limit = limit
  fits : s.items.length ≤ limit
  all : ∀ v ∈ s.items, good v

namespace StackM

variable {P : Stack → Prop}

/-- A computation keeps a property of the stack, also when it fails; its result has a
property of its own. -/
def Keeps {α : Type} (P : Stack → Prop) (Q : α → Prop) (computation : StackM α) : Prop :=
  ∀ s, P s →
    match computation s with
    | .ok a next => P next ∧ Q a
    | .error _ next => P next

/-- A result that is given without a step keeps everything. -/
theorem Keeps.pure {α : Type} {Q : α → Prop} {a : α} (holds : Q a) :
    Keeps P Q (pure a : StackM α) :=
  fun _ before => ⟨before, holds⟩

/-- An error that is thrown leaves the stack as it is. -/
theorem Keeps.throw {α : Type} {Q : α → Prop} (error : Error) :
    Keeps P Q (throw error : StackM α) :=
  fun _ before => before

/-- Computations that keep a property keep it one after the other. -/
theorem Keeps.bind {α β : Type} {Q : α → Prop} {S : β → Prop} {first : StackM α}
    {next : α → StackM β} (kept : Keeps P Q first) (continued : ∀ a, Q a → Keeps P S (next a)) :
    Keeps P S (first >>= next) := by
  intro s before
  have after := kept s before
  simp only [Bind.bind, EStateM.bind]
  cases reached : first s with
  | ok a middle =>
      rw [reached] at after
      exact continued a after.2 middle after.1
  | error error middle =>
      rw [reached] at after
      exact after

variable {name : String} {limit : Nat} {good : Value → Prop}

/-- A push within the limit keeps the stack sound, and one beyond it fails. -/
theorem keeps_push {v : Value} (holds : good v) :
    Keeps (Stack.Sound name limit good) (fun _ => True) (push v) := by
  intro s sound
  unfold push Stack.push
  by_cases full : s.limit ≤ s.depth
  · rw [if_pos full]
    exact sound
  · rw [if_neg full]
    refine ⟨⟨sound.called, sound.bound, ?_, ?_⟩, trivial⟩
    · have limit_eq := sound.bound
      unfold Stack.depth at full
      rw [List.length_cons]
      omega
    · rw [List.forall_mem_cons]
      exact ⟨holds, sound.all⟩

/-- What is popped off a sound stack is good, and what is left is sound. -/
theorem keeps_pop : Keeps (Stack.Sound name limit good) good pop := by
  intro s sound
  unfold pop Stack.pop
  cases items : s.items with
  | nil => exact sound
  | cons v rest =>
      have fits := sound.fits
      have all := sound.all
      rw [items] at fits all
      rw [List.forall_mem_cons] at all
      rw [List.length_cons] at fits
      exact ⟨⟨sound.called, sound.bound, Nat.le_of_succ_le fits, all.2⟩, all.1⟩

/-- What lies on top of a sound stack is good. -/
theorem keeps_peek : Keeps (Stack.Sound name limit good) good peek := by
  intro s sound
  unfold peek Stack.peek
  cases items : s.items with
  | nil => exact sound
  | cons v rest =>
      have all := sound.all
      rw [items, List.forall_mem_cons] at all
      exact ⟨sound, all.1⟩

/-- A pop that wants a number keeps the stack sound also when it finds none. -/
theorem keeps_popNumber (word : String) :
    Keeps (Stack.Sound name limit good) (fun _ => True) (popNumber word) := by
  refine keeps_pop.bind fun v _ => ?_
  cases v with
  | number x => exact .pure trivial
  | text | bool | handle | nil => exact .throw _

/-- A pop that wants a truth value keeps the stack sound also when it finds none. -/
theorem keeps_popBool (word : String) :
    Keeps (Stack.Sound name limit good) (fun _ => True) (popBool word) := by
  refine keeps_pop.bind fun v _ => ?_
  cases v with
  | bool b => exact .pure trivial
  | number | text | handle | nil => exact .throw _

/-- Several pushes of good values keep the stack sound, even if one of them fails. -/
theorem keeps_pushAll {values : List Value} (all : ∀ v ∈ values, good v) :
    Keeps (Stack.Sound name limit good) (fun _ => True) (pushAll values) := by
  induction values with
  | nil => exact .pure trivial
  | cons v rest ih =>
      rw [List.forall_mem_cons] at all
      exact (keeps_push all.1).bind fun _ _ => ih all.2

/-! ## Several pushes -/

/-- A push succeeds where there is room. -/
theorem push_of_room (v : Value) {s : Stack} (room : s.depth < s.limit) :
    push v s = .ok () { s with items := v :: s.items } := by
  unfold push Stack.push
  rw [if_neg (Nat.not_le.mpr room)]

/-- A push onto a full stack fails and changes nothing. -/
theorem push_of_full (v : Value) {s : Stack} (full : s.limit ≤ s.depth) :
    push v s = .error (.stackOverflow s.name s.limit) s := by
  unfold push Stack.push
  rw [if_pos full]

/-- A push that fails changes nothing. -/
theorem eq_of_push_error {v : Value} {s last : Stack} {error : Error}
    (failed : push v s = .error error last) : last = s := by
  unfold push at failed
  split at failed <;> cases failed
  rfl

/-- Several pushes succeed where there is room for all, and the last value is on top. -/
theorem pushAll_eq (values : List Value) (s : Stack) (fits : s.depth + values.length ≤ s.limit) :
    pushAll values s = .ok () { s with items := values.reverse ++ s.items } := by
  induction values generalizing s with
  | nil => rfl
  | cons v rest ih =>
      rw [List.length_cons] at fits
      have pushed := push_of_room v (s := s) (by omega)
      have later := ih { s with items := v :: s.items } (by
        simp only [Stack.depth, List.length_cons] at fits ⊢
        omega)
      simp only [pushAll, bind, EStateM.bind, pushed, later, List.reverse_cons, List.append_assoc,
        List.singleton_append]

/-- Pushes that overflow leave as many values as fit. -/
theorem pushAll_of_overflow (values : List Value) (s : Stack) (within : s.depth ≤ s.limit)
    (overflow : s.limit < s.depth + values.length) :
    pushAll values s =
      .error (.stackOverflow s.name s.limit)
        { s with items := (values.take (s.limit - s.depth)).reverse ++ s.items } := by
  induction values generalizing s with
  | nil =>
      rw [List.length_nil] at overflow
      omega
  | cons v rest ih =>
      by_cases full : s.limit ≤ s.depth
      · have stopped := push_of_full v full
        have none_fits : s.limit - s.depth = 0 := by omega
        simp only [pushAll, bind, EStateM.bind, stopped, none_fits, List.take_zero,
          List.reverse_nil, List.nil_append]
      · rw [List.length_cons] at overflow
        have pushed := push_of_room v (Nat.not_le.mp full)
        have later := ih { s with items := v :: s.items }
          (by simp only [Stack.depth, List.length_cons] at full ⊢; omega)
          (by simp only [Stack.depth, List.length_cons] at overflow ⊢; omega)
        have one_less : s.limit - s.depth = s.limit - (s.items.length + 1) + 1 := by
          unfold Stack.depth at full ⊢
          omega
        simp only [Stack.depth, List.length_cons] at later
        simp only [pushAll, bind, EStateM.bind, pushed, later, one_less, List.take_succ_cons,
          List.reverse_cons, List.append_assoc, List.singleton_append]

end StackM

/-- The values that core words make are good. -/
structure Value.Made (good : Value → Prop) : Prop where
  number : ∀ x, good (.number x)
  bool : ∀ b, good (.bool b)
  nil : good .nil

namespace CoreWord

open StackM

variable {name : String} {limit : Nat} {good : Value → Prop}

/-- A word on two numbers keeps the stack sound if what it makes is good. -/
theorem keeps_onNumbers (word : CoreWord) {f : Float → Float → Value}
    (makes : ∀ a b, good (f a b)) :
    Keeps (Stack.Sound name limit good) (fun _ => True) (onNumbers word f) :=
  (keeps_popNumber _).bind fun b _ => (keeps_popNumber _).bind fun a _ => keeps_push (makes a b)

/-- A word on one number keeps the stack sound if what it makes is good. -/
theorem keeps_onNumber (word : CoreWord) {f : Float → Value} (makes : ∀ a, good (f a)) :
    Keeps (Stack.Sound name limit good) (fun _ => True) (onNumber word f) :=
  (keeps_popNumber _).bind fun a _ => keeps_push (makes a)

/-- A word on two truth values keeps the stack sound if truth values are good. -/
theorem keeps_onBools (word : CoreWord) (f : Bool → Bool → Bool) (makes : ∀ b, good (.bool b)) :
    Keeps (Stack.Sound name limit good) (fun _ => True) (onBools word f) :=
  (keeps_popBool _).bind fun _ _ => (keeps_popBool _).bind fun _ _ => keeps_push (makes _)

/-- A word on any two values keeps the stack sound if what it makes of good ones is good. -/
theorem keeps_onPair {f : Value → Value → List Value}
    (makes : ∀ a b, good a → good b → ∀ v ∈ f a b, good v) :
    Keeps (Stack.Sound name limit good) (fun _ => True) (onPair f) :=
  keeps_pop.bind fun b second => keeps_pop.bind fun a first =>
    keeps_pushAll (makes a b first second)

/-- A core word keeps a stack of good values. -/
theorem keeps_run (word : CoreWord) (made : Value.Made good) :
    Keeps (Stack.Sound name limit good) (fun _ => True) word.run := by
  cases word with
  | add | subtract | multiply | divide | modulo | minimum | maximum =>
      exact keeps_onNumbers _ fun _ _ => made.number _
  | less | greater | atMost | atLeast => exact keeps_onNumbers _ fun _ _ => made.bool _
  | negate | absolute => exact keeps_onNumber _ fun _ => made.number _
  | isZero => exact keeps_onNumber _ fun _ => made.bool _
  | both | either => exact keeps_onBools _ _ made.bool
  | negation => exact (keeps_popBool _).bind fun _ _ => keeps_push (made.bool _)
  | pushTrue | pushFalse => exact keeps_push (made.bool _)
  | pushNil => exact keeps_push made.nil
  | equal | unequal =>
      refine keeps_onPair fun a b _ _ => ?_
      simp only [List.forall_mem_cons]
      exact ⟨made.bool _, nofun⟩
  | swap | «over» | nip | tuck | twoDup | twoDrop =>
      refine keeps_onPair fun a b first second => ?_
      simp [first, second]
  | dup => exact keeps_peek.bind fun _ top => keeps_push top
  | drop => exact keeps_pop.bind fun _ _ => .pure trivial
  | rot =>
      refine keeps_pop.bind fun c third => keeps_pop.bind fun b second =>
        keeps_pop.bind fun a first => keeps_pushAll ?_
      simp [first, second, third]
  | twoSwap =>
      refine keeps_pop.bind fun d fourth => keeps_pop.bind fun c third =>
        keeps_pop.bind fun b second => keeps_pop.bind fun a first => keeps_pushAll ?_
      simp [first, second, third, fourth]
  | depth =>
      intro s sound
      exact keeps_push (made.number _) s sound
  | clear =>
      intro s sound
      exact ⟨⟨sound.called, sound.bound, Nat.zero_le _, fun _ member => nomatch member⟩, trivial⟩

end CoreWord

namespace ConsoleWord

open StackM

/-- Making the text of a console word keeps a stack of good values. -/
theorem keeps_text (word : ConsoleWord) (names : List String) {name : String} {limit : Nat}
    {good : Value → Prop} :
    Keeps (Stack.Sound name limit good) (fun _ => True) (word.text names) := by
  cases word with
  | print => exact keeps_pop.bind fun _ _ => .pure trivial
  | emit => exact (keeps_popNumber _).bind fun _ _ => .pure trivial
  | printStack =>
      intro s sound
      exact ⟨sound, trivial⟩
  | newline | space | words => exact .pure trivial

end ConsoleWord

end WordMachine
