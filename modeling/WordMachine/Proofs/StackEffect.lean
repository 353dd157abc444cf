import Mathlib.Data.List.Basic
import WordMachine.Proofs.Number.Operations
import WordMachine.Proofs.Stack

/-! # The stack effects of core words

Every core word declares in a comment what it takes from the stack and what it leaves. Read as a
`StackEffect`, the comment counts inputs and outputs, and for the words that only move values it
names each output. For the others the outputs are those of arithmetic, of remainders and orders of
numbers, of logic and of the equality of values (`CoreWord.Leaves`). All core words but `DEPTH` and
`CLEAR` are of one shape (`StackM.Replaces`): they put what they make of their inputs in the place
of these, whatever lies below. An overflow then leaves as much of the outputs as fits
(`StackM.Replaces.full`).
-/

namespace WordMachine

/-! ## Declared effects -/

/-- A declared effect: the names of the values that a word takes and of those that it leaves, the
top last. -/
structure StackEffect where
  inputs : List String
  outputs : List String
  deriving DecidableEq

namespace StackEffect

/-- Reads an effect of the form `( inputs -- outputs )`. -/
def ofText (text : String) : StackEffect :=
  let names := (Text.words text).filter fun name => name ≠ "(" ∧ name ≠ ")"
  ⟨names.takeWhile (· ≠ "--"), (names.dropWhile (· ≠ "--")).drop 1⟩

/-- The values that the outputs name among the inputs. -/
def rearranged (effect : StackEffect) (values : List Value) : List Value :=
  effect.outputs.filterMap fun name => (effect.inputs.zip values).lookup name

end StackEffect

/-- Values are equal if they are of one type and their contents are: numbers by comparison, so that
a NaN is equal to nothing and the zeros are equal, and handles by their kinds and objects. -/
inductive Value.Equal : Value → Value → Prop where
  | number {x y : Float} (same : (x == y) = true) : Equal (.number x) (.number y)
  | text (s : String) : Equal (.text s) (.text s)
  | bool (b : Bool) : Equal (.bool b) (.bool b)
  | handle {h h' : Handle} (kind : h.kind = h'.kind)
      (object : h.object.map HostObject.identity = h'.object.map HostObject.identity) :
      Equal (.handle h) (.handle h')
  | nil : Equal .nil .nil

theorem Value.agrees_iff_equal (a b : Value) : a.agrees b = true ↔ a.Equal b := by
  constructor
  · intro agree
    cases a <;> cases b <;> try exact (Bool.false_ne_true agree).elim
    case number.number => exact .number agree
    case text.text => exact beq_iff_eq.mp agree ▸ .text _
    case bool.bool => exact beq_iff_eq.mp agree ▸ .bool _
    case handle.handle =>
        obtain ⟨kind, object⟩ := Bool.and_eq_true_iff.mp agree
        exact .handle (beq_iff_eq.mp kind) (beq_iff_eq.mp object)
    case nil.nil => exact .nil
  · intro equal
    cases equal with
    | number same => exact same
    | text s => exact beq_self_eq_true s
    | bool b => exact beq_self_eq_true b
    | handle kind object => simp [Value.agrees, Handle.agrees, kind, object]
    | nil => rfl

namespace CoreWord

/-- The effect that a core word declares. -/
def declared (word : CoreWord) : StackEffect :=
  .ofText word.effect

/-- How many values a core word takes. -/
def inputCount (word : CoreWord) : Nat :=
  word.declared.inputs.length

/-- How many values a core word leaves. -/
def outputCount (word : CoreWord) : Nat :=
  word.declared.outputs.length

/-- The type that all inputs of a core word need; none if any value will do. -/
def inputKind? : CoreWord → Option Kind
  | .add | .subtract | .multiply | .divide | .modulo | .negate | .absolute | .minimum | .maximum
  | .less | .greater | .atMost | .atLeast | .isZero => some .number
  | .both | .either | .negation => some .bool
  | .equal | .unequal | .pushTrue | .pushFalse | .pushNil | .dup | .drop | .swap | .over | .rot
  | .nip | .tuck | .twoDup | .twoDrop | .twoSwap | .depth | .clear => none

/-- Whether a value is of the type that a core word needs. -/
def accepts (word : CoreWord) (v : Value) : Bool :=
  word.inputKind?.all fun kind => v.kind = kind

/-- The result of an operation on a number. -/
def ofNumber (f : Float → Value) : List Value → List Value
  | [.number a] => [f a]
  | _ => []

/-- The result of an operation on two numbers. -/
def ofNumbers (f : Float → Float → Value) : List Value → List Value
  | [.number a, .number b] => [f a b]
  | _ => []

/-- The result of an operation on a truth value. -/
def ofBool (f : Bool → Bool) : List Value → List Value
  | [.bool a] => [.bool (f a)]
  | _ => []

/-- The result of an operation on two truth values. -/
def ofBools (f : Bool → Bool → Bool) : List Value → List Value
  | [.bool a, .bool b] => [.bool (f a b)]
  | _ => []

/-- The result of a comparison of two values. -/
def ofPair (f : Value → Value → Bool) : List Value → List Value
  | [a, b] => [.bool (f a b)]
  | _ => []

/-- What a core word computes from inputs that it accepts, both in declared order. Words that only
move values leave those that their declaration names. What `DEPTH` and `CLEAR` leave depends on
the whole stack. -/
def result (word : CoreWord) : List Value → List Value :=
  match word with
  | .add => ofNumbers fun a b => .number (a + b)
  | .subtract => ofNumbers fun a b => .number (a - b)
  | .multiply => ofNumbers fun a b => .number (a * b)
  | .divide => ofNumbers fun a b => .number (a / b)
  | .modulo => ofNumbers fun a b => .number (Binary64.remainder a b)
  | .negate => ofNumber fun n => .number (-n)
  | .absolute => ofNumber fun n => .number n.abs
  | .minimum => ofNumbers fun a b => .number (Binary64.minimum a b)
  | .maximum => ofNumbers fun a b => .number (Binary64.maximum a b)
  | .equal => ofPair fun a b => a.agrees b
  | .unequal => ofPair fun a b => !a.agrees b
  | .less => ofNumbers fun a b => .bool (a < b)
  | .greater => ofNumbers fun a b => .bool (b < a)
  | .atMost => ofNumbers fun a b => .bool (a ≤ b)
  | .atLeast => ofNumbers fun a b => .bool (b ≤ a)
  | .isZero => ofNumber fun n => .bool (n == 0)
  | .both => ofBools fun a b => a && b
  | .either => ofBools fun a b => a || b
  | .negation => ofBool fun a => !a
  | .pushTrue => fun _ => [.bool true]
  | .pushFalse => fun _ => [.bool false]
  | .pushNil => fun _ => [.nil]
  | .dup | .drop | .swap | .over | .rot | .nip | .tuck | .twoDup | .twoDrop | .twoSwap =>
    word.declared.rearranged
  | .depth | .clear => fun _ => []

/-- A word leaves outputs in the place of inputs that it accepts. What `MOD`, `MIN`, `MAX`, `=` and
`<>` leave is told by what their results are, and not by how they are computed. -/
def Leaves (word : CoreWord) (inputs outputs : List Value) : Prop :=
  match word with
  | .modulo => ∃ a b r, inputs = [.number a, .number b] ∧ outputs = [.number r] ∧
    Binary64.IsRemainder a b r
  | .minimum => ∃ a b r, inputs = [.number a, .number b] ∧ outputs = [.number r] ∧
    Binary64.IsBest (fun x y => x ≤ y) a b r
  | .maximum => ∃ a b r, inputs = [.number a, .number b] ∧ outputs = [.number r] ∧
    Binary64.IsBest (fun x y => y ≤ x) a b r
  | .equal => ∃ a b flag, inputs = [a, b] ∧ outputs = [.bool flag] ∧ (flag = true ↔ a.Equal b)
  | .unequal => ∃ a b flag, inputs = [a, b] ∧ outputs = [.bool flag] ∧ (flag = true ↔ ¬a.Equal b)
  | _ => outputs = word.result inputs

/-- What a core word makes of its inputs; none if it does not accept one of them. -/
def makes (word : CoreWord) (inputs : List Value) : Option (List Value) :=
  if inputs.all word.accepts then some (word.result inputs) else none

end CoreWord

/-! ## Computations that replace the top of a stack -/

namespace StackM

/-- A computation takes `count` values, the top first, and leaves what `makes` says of them, the
top last. -/
structure Replaces (count : Nat) (makes : List Value → Option (List Value))
    (computation : StackM Unit) : Prop where
  short : ∀ {s : Stack}, s.depth < count → ∃ error last, computation s = .error error last ∧
    ∀ stack limit, error ≠ .stackOverflow stack limit
  refused : ∀ (name : String) (limit : Nat) (lower : List Value) {taken : List Value},
    taken.length = count → makes taken = none →
      ∃ error left, computation ⟨name, limit, taken ++ lower⟩ =
          .error error ⟨name, limit, left ++ lower⟩ ∧
        left.length ≤ count ∧ ∀ stack limit, error ≠ .stackOverflow stack limit
  made : ∀ (name : String) {limit : Nat} {lower taken outputs : List Value},
    taken.length = count → makes taken = some outputs →
      lower.length + outputs.length ≤ limit →
        computation ⟨name, limit, taken ++ lower⟩ =
          .ok () ⟨name, limit, outputs.reverse ++ lower⟩
  full : ∀ (name : String) {limit : Nat} {lower taken outputs : List Value},
    taken.length = count → makes taken = some outputs → lower.length + count ≤ limit →
      limit < lower.length + outputs.length →
        computation ⟨name, limit, taken ++ lower⟩ =
          .error (.stackOverflow name limit)
            ⟨name, limit, (outputs.take (limit - lower.length)).reverse ++ lower⟩

theorem underflow_ne_overflow (name stack : String) (limit : Nat) :
    Error.stackUnderflow name ≠ .stackOverflow stack limit := by
  intro same
  cases same

namespace Replaces

theorem pushAll (values : List Value) : Replaces 0 (fun _ => some values) (pushAll values) where
  short none_less := absurd none_less (Nat.not_lt_zero _)
  refused _ _ _ _ _ none_made := nomatch none_made
  made name limit lower taken outputs empty some_made fits := by
    cases some_made
    rw [List.length_eq_zero_iff.mp empty]
    exact pushAll_eq values ⟨name, limit, lower⟩ fits
  full name limit lower taken outputs empty some_made within overflow := by
    cases some_made
    rw [List.length_eq_zero_iff.mp empty]
    exact pushAll_of_overflow values ⟨name, limit, lower⟩ within overflow

theorem push (v : Value) : Replaces 0 (fun _ => some [v]) (push v) := by
  have same : StackM.push v = StackM.pushAll [v] := (bind_pure (StackM.push v)).symm
  rw [same]
  exact pushAll [v]

/-- A failure that is no overflow leaves all that it was given. -/
theorem throw (count : Nat) {error : Error}
    (other : ∀ stack limit, error ≠ .stackOverflow stack limit) :
    Replaces count (fun _ => none) (throw error) where
  short {s} _ := ⟨error, s, rfl, other⟩
  refused _ _ _ taken counted _ := ⟨error, taken, rfl, Nat.le_of_eq counted, other⟩
  made _ _ _ _ _ _ some_made := nomatch some_made
  full _ _ _ _ _ _ some_made := nomatch some_made

variable {count : Nat}

/-- What is made of other numbers of values does not matter. -/
theorem congr {makes makes' : List Value → Option (List Value)} {computation : StackM Unit}
    (replaces : Replaces count makes computation)
    (same : ∀ taken, taken.length = count → makes' taken = makes taken) :
    Replaces count makes' computation where
  short := replaces.short
  refused name limit lower _ counted none_made :=
    replaces.refused name limit lower counted ((same _ counted).symm.trans none_made)
  made name _ _ _ _ counted some_made :=
    replaces.made name counted ((same _ counted).symm.trans some_made)
  full name _ _ _ _ counted some_made :=
    replaces.full name counted ((same _ counted).symm.trans some_made)

/-- Taking one more value first. -/
theorem pop {makes : List Value → Option (List Value)} {next : Value → StackM Unit}
    (replaces : ∀ v, Replaces count (fun taken => makes (v :: taken)) (next v)) :
    Replaces (count + 1) makes (StackM.pop >>= next) := by
  constructor
  · rintro ⟨name, limit, items⟩ fewer
    cases items with
    | nil => exact ⟨_, _, rfl, underflow_ne_overflow name⟩
    | cons v rest => exact (replaces v).short (Nat.lt_of_succ_lt_succ fewer)
  · intro name limit lower taken counted none_made
    obtain ⟨v, rest, rfl, others⟩ := List.length_eq_succ_iff.mp counted
    obtain ⟨error, left, failed, few, other⟩ :=
      (replaces v).refused name limit lower others none_made
    exact ⟨error, left, failed, Nat.le_succ_of_le few, other⟩
  · intro name limit lower taken outputs counted some_made fits
    obtain ⟨v, rest, rfl, others⟩ := List.length_eq_succ_iff.mp counted
    exact (replaces v).made name others some_made fits
  · intro name limit lower taken outputs counted some_made within overflow
    obtain ⟨v, rest, rfl, others⟩ := List.length_eq_succ_iff.mp counted
    exact (replaces v).full name others some_made (Nat.le_of_succ_le within) overflow

/-- Taking a number first fails for a value of another type. -/
theorem popNumber (word : String) {makes : List Value → Option (List Value)}
    {next : Float → StackM Unit}
    (replaces : ∀ x, Replaces count (fun taken => makes (.number x :: taken)) (next x))
    (others : ∀ v taken, v.kind ≠ .number → makes (v :: taken) = none) :
    Replaces (count + 1) makes (StackM.popNumber word >>= next) := by
  rw [StackM.popNumber, bind_assoc]
  have mismatch : ∀ found stack limit,
      Error.typeMismatch word .number found ≠ .stackOverflow stack limit := by
    intro found stack limit same
    cases same
  apply pop
  intro v
  cases v with
  | number x => exact replaces x
  | text | bool | handle | nil =>
      exact (throw count (mismatch _)).congr fun taken _ => others _ taken nofun

/-- Taking a truth value first fails for a value of another type. -/
theorem popBool (word : String) {makes : List Value → Option (List Value)}
    {next : Bool → StackM Unit}
    (replaces : ∀ b, Replaces count (fun taken => makes (.bool b :: taken)) (next b))
    (others : ∀ v taken, v.kind ≠ .bool → makes (v :: taken) = none) :
    Replaces (count + 1) makes (StackM.popBool word >>= next) := by
  rw [StackM.popBool, bind_assoc]
  have mismatch : ∀ found stack limit,
      Error.typeMismatch word .bool found ≠ .stackOverflow stack limit := by
    intro found stack limit same
    cases same
  apply pop
  intro v
  cases v with
  | bool b => exact replaces b
  | number | text | handle | nil =>
      exact (throw count (mismatch _)).congr fun taken _ => others _ taken nofun

end Replaces

end StackM

/-! ## Core words -/

namespace CoreWord

open StackM

/-- The declared effects, as they are read. -/
theorem declared_eq (word : CoreWord) :
    word.declared =
      match word with
      | .add => ⟨["a", "b"], ["a+b"]⟩
      | .subtract => ⟨["a", "b"], ["a-b"]⟩
      | .multiply => ⟨["a", "b"], ["a*b"]⟩
      | .divide => ⟨["a", "b"], ["a/b"]⟩
      | .modulo => ⟨["a", "b"], ["a%b"]⟩
      | .negate => ⟨["n"], ["-n"]⟩
      | .absolute => ⟨["n"], ["|n|"]⟩
      | .minimum => ⟨["a", "b"], ["min"]⟩
      | .maximum => ⟨["a", "b"], ["max"]⟩
      | .equal | .unequal | .less | .greater | .atMost | .atLeast => ⟨["a", "b"], ["flag"]⟩
      | .isZero => ⟨["n"], ["flag"]⟩
      | .both => ⟨["a", "b"], ["a&&b"]⟩
      | .either => ⟨["a", "b"], ["a||b"]⟩
      | .negation => ⟨["a"], ["!a"]⟩
      | .pushTrue => ⟨[], ["true"]⟩
      | .pushFalse => ⟨[], ["false"]⟩
      | .pushNil => ⟨[], ["nil"]⟩
      | .dup => ⟨["x"], ["x", "x"]⟩
      | .drop => ⟨["x"], []⟩
      | .swap => ⟨["a", "b"], ["b", "a"]⟩
      | .over => ⟨["a", "b"], ["a", "b", "a"]⟩
      | .rot => ⟨["a", "b", "c"], ["b", "c", "a"]⟩
      | .nip => ⟨["a", "b"], ["b"]⟩
      | .tuck => ⟨["a", "b"], ["b", "a", "b"]⟩
      | .twoDup => ⟨["a", "b"], ["a", "b", "a", "b"]⟩
      | .twoDrop => ⟨["a", "b"], []⟩
      | .twoSwap => ⟨["a", "b", "c", "d"], ["c", "d", "a", "b"]⟩
      | .depth => ⟨[], ["n"]⟩
      | .clear => ⟨["..."], []⟩ := by
  cases word <;> decide +kernel

theorem makes_of_accepted {word : CoreWord} {inputs : List Value}
    (accepted : ∀ v ∈ inputs, word.accepts v = true) :
    word.makes inputs = some (word.result inputs) := by
  rw [makes, if_pos (List.all_eq_true.mpr accepted)]

theorem makes_of_refused {word : CoreWord} {inputs : List Value} {v : Value} (member : v ∈ inputs)
    (refused : word.accepts v = false) : word.makes inputs = none := by
  have not_all : ¬inputs.all word.accepts = true := by
    rw [List.all_eq_true]
    exact fun accepted => Bool.false_ne_true (refused.symm.trans (accepted v member))
  rw [makes, if_neg not_all]

theorem accepts_of_kind {word : CoreWord} {kind : Kind} (needs : word.inputKind? = some kind)
    (v : Value) : word.accepts v = decide (v.kind = kind) := by
  rw [accepts, needs, Option.all_some]

theorem accepts_of_any {word : CoreWord} (needs : word.inputKind? = none) (v : Value) :
    word.accepts v = true := by
  rw [accepts, needs, Option.all_none]

/-- A word that needs values of one type refuses all others. -/
theorem makes_of_kind_ne {word : CoreWord} {kind : Kind} (needs : word.inputKind? = some kind)
    {inputs : List Value} {v : Value} (member : v ∈ inputs) (apart : v.kind ≠ kind) :
    word.makes inputs = none := by
  apply makes_of_refused member
  rw [accepts_of_kind needs, decide_eq_false apart]

theorem makes_of_any {word : CoreWord} (needs : word.inputKind? = none) (inputs : List Value) :
    word.makes inputs = some (word.result inputs) :=
  makes_of_accepted fun v _ => accepts_of_any needs v

section Families

variable {word : CoreWord}

theorem replaces_onNumbers {f : Float → Float → Value} (needs : word.inputKind? = some .number)
    (leaves : ∀ a b, word.result [.number a, .number b] = [f a b]) :
    Replaces 2 (fun taken => word.makes taken.reverse) (onNumbers word f) := by
  refine .popNumber _ (fun b => .popNumber _ (fun a => (Replaces.push _).congr ?_) ?_) ?_
  · intro taken empty
    rw [List.length_eq_zero_iff.mp empty, ← leaves a b]
    apply makes_of_accepted
    simp [accepts_of_kind needs, Value.kind]
  · intro v taken
    exact makes_of_kind_ne needs (by simp)
  · intro v taken
    exact makes_of_kind_ne needs (by simp)

theorem replaces_onNumber {f : Float → Value} (needs : word.inputKind? = some .number)
    (leaves : ∀ a, word.result [.number a] = [f a]) :
    Replaces 1 (fun taken => word.makes taken.reverse) (onNumber word f) := by
  refine .popNumber _ (fun a => (Replaces.push _).congr ?_) ?_
  · intro taken empty
    rw [List.length_eq_zero_iff.mp empty, ← leaves a]
    apply makes_of_accepted
    simp [accepts_of_kind needs, Value.kind]
  · intro v taken
    exact makes_of_kind_ne needs (by simp)

theorem replaces_onBools {f : Bool → Bool → Bool} (needs : word.inputKind? = some .bool)
    (leaves : ∀ a b, word.result [.bool a, .bool b] = [.bool (f a b)]) :
    Replaces 2 (fun taken => word.makes taken.reverse) (onBools word f) := by
  refine .popBool _ (fun b => .popBool _ (fun a => (Replaces.push _).congr ?_) ?_) ?_
  · intro taken empty
    rw [List.length_eq_zero_iff.mp empty, ← leaves a b]
    apply makes_of_accepted
    simp [accepts_of_kind needs, Value.kind]
  · intro v taken
    exact makes_of_kind_ne needs (by simp)
  · intro v taken
    exact makes_of_kind_ne needs (by simp)

theorem replaces_onPair {f : Value → Value → List Value} (needs : word.inputKind? = none)
    (leaves : ∀ a b, word.result [a, b] = f a b) :
    Replaces 2 (fun taken => word.makes taken.reverse) (onPair f) := by
  refine .pop fun b => .pop fun a => (Replaces.pushAll _).congr ?_
  intro taken empty
  rw [List.length_eq_zero_iff.mp empty, ← leaves a b]
  exact makes_of_any needs [a, b]

theorem replaces_constant {v : Value} (needs : word.inputKind? = none)
    (leaves : word.result [] = [v]) :
    Replaces 0 (fun taken => word.makes taken.reverse) (StackM.push v) := by
  refine (Replaces.push v).congr ?_
  intro taken empty
  rw [List.length_eq_zero_iff.mp empty, ← leaves]
  exact makes_of_any needs []

end Families

/-- The negation of a truth value. -/
theorem replaces_negation :
    Replaces 1 (fun taken => negation.makes taken.reverse) negation.run := by
  refine .popBool _ (fun a => (Replaces.push _).congr ?_) ?_
  · intro taken empty
    rw [List.length_eq_zero_iff.mp empty]
    rfl
  · intro v taken
    exact makes_of_kind_ne rfl (by simp)

/-- A copy of the top is pushed beside it, without taking it first. -/
theorem replaces_dup : Replaces 1 (fun taken => dup.makes taken.reverse) dup.run := by
  have leaves : ∀ x, dup.makes [x] = some [x, x] := by
    intro x
    rw [makes_of_any rfl]
    simp [result, declared_eq, StackEffect.rearranged]
  constructor
  · rintro ⟨name, limit, items⟩ fewer
    rw [Stack.depth, Nat.lt_one_iff, List.length_eq_zero_iff] at fewer
    cases fewer
    exact ⟨_, _, rfl, underflow_ne_overflow name⟩
  · intro name limit lower taken counted none_made
    obtain ⟨x, rfl⟩ := List.length_eq_one_iff.mp counted
    cases (leaves x).symm.trans none_made
  · intro name limit lower taken outputs counted some_made fits
    obtain ⟨x, rfl⟩ := List.length_eq_one_iff.mp counted
    cases (leaves x).symm.trans some_made
    exact push_of_room x (s := ⟨name, limit, x :: lower⟩) fits
  · intro name limit lower taken outputs counted some_made within overflow
    obtain ⟨x, rfl⟩ := List.length_eq_one_iff.mp counted
    cases (leaves x).symm.trans some_made
    have one_fits : limit - lower.length = 1 := by
      rw [List.length_cons, List.length_singleton] at overflow
      omega
    rw [one_fits]
    exact push_of_full x (s := ⟨name, limit, x :: lower⟩) (Nat.le_of_lt_succ overflow)

theorem replaces_drop : Replaces 1 (fun taken => drop.makes taken.reverse) drop.run := by
  refine .pop fun x => (Replaces.pushAll []).congr ?_
  intro taken empty
  rw [List.length_eq_zero_iff.mp empty, makes_of_any rfl]
  simp [result, declared_eq, StackEffect.rearranged]

theorem replaces_rot : Replaces 3 (fun taken => rot.makes taken.reverse) rot.run := by
  refine .pop fun c => .pop fun b => .pop fun a => (Replaces.pushAll _).congr ?_
  intro taken empty
  rw [List.length_eq_zero_iff.mp empty, makes_of_any rfl]
  simp [result, declared_eq, StackEffect.rearranged, List.lookup_cons]

theorem replaces_twoSwap :
    Replaces 4 (fun taken => twoSwap.makes taken.reverse) twoSwap.run := by
  refine .pop fun d => .pop fun c => .pop fun b => .pop fun a => (Replaces.pushAll _).congr ?_
  intro taken empty
  rw [List.length_eq_zero_iff.mp empty, makes_of_any rfl]
  simp [result, declared_eq, StackEffect.rearranged, List.lookup_cons]

/-- **Core words replace their inputs.** Every core word but `DEPTH` and `CLEAR` takes as many
values as it declares and leaves what it makes of them. -/
theorem replaces_run {word : CoreWord} (not_depth : word ≠ .depth) (not_clear : word ≠ .clear) :
    Replaces word.inputCount (fun taken => word.makes taken.reverse) word.run := by
  rw [inputCount, declared_eq]
  cases word with
  | add | subtract | multiply | divide | modulo | minimum | maximum | less | greater | atMost
  | atLeast => exact replaces_onNumbers rfl fun _ _ => rfl
  | negate | absolute | isZero => exact replaces_onNumber rfl fun _ => rfl
  | both | either => exact replaces_onBools rfl fun _ _ => rfl
  | negation => exact replaces_negation
  | pushTrue | pushFalse | pushNil => exact replaces_constant rfl rfl
  | equal | unequal => exact replaces_onPair rfl fun _ _ => rfl
  | swap | «over» | nip | tuck | twoDup | twoDrop =>
      apply replaces_onPair rfl
      intro a b
      simp [result, declared_eq, StackEffect.rearranged, List.lookup_cons]
  | dup => exact replaces_dup
  | drop => exact replaces_drop
  | rot => exact replaces_rot
  | twoSwap => exact replaces_twoSwap
  | depth => exact (not_depth rfl).elim
  | clear => exact (not_clear rfl).elim

/-- A value of the type that a word needs. -/
theorem kind_of_accepts {word : CoreWord} {kind : Kind} (needs : word.inputKind? = some kind)
    {v : Value} (accepted : word.accepts v = true) : v.kind = kind := by
  rwa [accepts_of_kind needs, decide_eq_true_eq] at accepted

/-- A core word leaves as many values as it declares. -/
theorem length_result {word : CoreWord} (not_depth : word ≠ .depth) (not_clear : word ≠ .clear)
    {inputs : List Value} (counted : inputs.length = word.inputCount)
    (accepted : ∀ v ∈ inputs, word.accepts v = true) :
    (word.result inputs).length = word.outputCount := by
  rw [inputCount, declared_eq] at counted
  rw [outputCount, declared_eq]
  cases word with
  | add | subtract | multiply | divide | modulo | minimum | maximum | less | greater | atMost
  | atLeast | both | either =>
      obtain ⟨a, b, rfl⟩ := List.length_eq_two.mp counted
      have first := kind_of_accepts rfl (accepted a (by simp))
      have second := kind_of_accepts rfl (accepted b (by simp))
      cases a <;> cases first
      cases b <;> cases second
      rfl
  | negate | absolute | isZero | negation =>
      obtain ⟨a, rfl⟩ := List.length_eq_one_iff.mp counted
      have only := kind_of_accepts rfl (accepted a (by simp))
      cases a <;> cases only
      rfl
  | pushTrue | pushFalse | pushNil => rfl
  | equal | unequal =>
      obtain ⟨a, b, rfl⟩ := List.length_eq_two.mp counted
      rfl
  | dup | drop =>
      obtain ⟨x, rfl⟩ := List.length_eq_one_iff.mp counted
      simp [result, declared_eq, StackEffect.rearranged]
  | swap | «over» | nip | tuck | twoDup | twoDrop =>
      obtain ⟨a, b, rfl⟩ := List.length_eq_two.mp counted
      simp [result, declared_eq, StackEffect.rearranged, List.lookup_cons]
  | rot =>
      obtain ⟨a, b, c, rfl⟩ := List.length_eq_three.mp counted
      simp [result, declared_eq, StackEffect.rearranged, List.lookup_cons]
  | twoSwap =>
      obtain ⟨a, rest, rfl, others⟩ := List.length_eq_succ_iff.mp counted
      obtain ⟨b, c, d, rfl⟩ := List.length_eq_three.mp others
      simp [result, declared_eq, StackEffect.rearranged, List.lookup_cons]
  | depth => exact (not_depth rfl).elim
  | clear => exact (not_clear rfl).elim

/-- Inputs of a word that needs two numbers. -/
theorem exists_numbers {word : CoreWord} (needs : word.inputKind? = some .number)
    {inputs : List Value} (two : inputs.length = 2)
    (accepted : ∀ v ∈ inputs, word.accepts v = true) :
    ∃ a b, inputs = [.number a, .number b] := by
  obtain ⟨a, b, rfl⟩ := List.length_eq_two.mp two
  have first := kind_of_accepts needs (accepted a (by simp))
  have second := kind_of_accepts needs (accepted b (by simp))
  cases a <;> cases first
  cases b <;> cases second
  exact ⟨_, _, rfl⟩

/-- What a core word computes is what it is to leave. -/
theorem leaves_result {word : CoreWord} {inputs : List Value}
    (counted : inputs.length = word.inputCount)
    (accepted : ∀ v ∈ inputs, word.accepts v = true) :
    word.Leaves inputs (word.result inputs) := by
  rw [inputCount, declared_eq] at counted
  cases word with
  | modulo =>
      obtain ⟨a, b, rfl⟩ := exists_numbers rfl counted accepted
      exact ⟨a, b, _, rfl, rfl, Binary64.isRemainder_remainder a b⟩
  | minimum =>
      obtain ⟨a, b, rfl⟩ := exists_numbers rfl counted accepted
      exact ⟨a, b, _, rfl, rfl, Binary64.isBest_minimum a b⟩
  | maximum =>
      obtain ⟨a, b, rfl⟩ := exists_numbers rfl counted accepted
      exact ⟨a, b, _, rfl, rfl, Binary64.isBest_maximum a b⟩
  | equal =>
      obtain ⟨a, b, rfl⟩ := List.length_eq_two.mp counted
      exact ⟨a, b, _, rfl, rfl, a.agrees_iff_equal b⟩
  | unequal =>
      obtain ⟨a, b, rfl⟩ := List.length_eq_two.mp counted
      refine ⟨a, b, _, rfl, rfl, ?_⟩
      rw [Bool.not_eq_true', ← a.agrees_iff_equal b, Bool.not_eq_true]
  | add | subtract | multiply | divide | negate | absolute | less | greater | atMost | atLeast
  | isZero | both | either | negation | pushTrue | pushFalse | pushNil | dup | drop | swap | «over»
  | rot | nip | tuck | twoDup | twoDrop | twoSwap | depth | clear => exact rfl

end CoreWord

/-! ## Ends of a run -/

namespace Stack

/-- The `count` values on top, the top last. -/
def top (s : Stack) (count : Nat) : List Value :=
  s.toList.drop (s.depth - count)

/-- The values below the `count` on top, the lowest first. -/
def below (s : Stack) (count : Nat) : List Value :=
  s.toList.take (s.depth - count)

theorem below_append_top (s : Stack) (count : Nat) : s.below count ++ s.top count = s.toList :=
  List.take_append_drop _ _

theorem length_top {s : Stack} {count : Nat} (enough : count ≤ s.depth) :
    (s.top count).length = count := by
  rw [top, List.length_drop, toList, List.length_reverse]
  unfold depth at enough ⊢
  omega

theorem length_below (s : Stack) (count : Nat) : (s.below count).length = s.depth - count := by
  rw [below, List.length_take, toList, List.length_reverse]
  unfold depth
  omega

/-- The stack with other values in the place of the `count` on top. -/
def replaceTop (s : Stack) (count : Nat) (values : List Value) : Stack :=
  { s with items := values.reverse ++ (s.below count).reverse }

@[simp]
theorem toList_replaceTop (s : Stack) (count : Nat) (values : List Value) :
    (s.replaceTop count values).toList = s.below count ++ values := by
  rw [toList, replaceTop, List.reverse_append, List.reverse_reverse, List.reverse_reverse]

@[simp]
theorem depth_replaceTop (s : Stack) (count : Nat) (values : List Value) :
    (s.replaceTop count values).depth = s.depth - count + values.length := by
  rw [depth, replaceTop, List.length_append, List.length_reverse, List.length_reverse,
    length_below, Nat.add_comm]

@[simp]
theorem replaceTop_top (s : Stack) (count : Nat) : s.replaceTop count (s.top count) = s := by
  rw [replaceTop, ← List.reverse_append, below_append_top, toList, List.reverse_reverse]

/-- Only the same values leave the stack as it is. -/
theorem replaceTop_eq_iff (s : Stack) (count : Nat) (values : List Value) :
    s.replaceTop count values = s ↔ values = s.top count := by
  constructor
  · intro same
    have lists := congrArg toList (same.trans (s.replaceTop_top count).symm)
    rw [toList_replaceTop, toList_replaceTop] at lists
    exact List.append_cancel_left lists
  · rintro rfl
    exact s.replaceTop_top count

end Stack

namespace CoreWord

/-- How a core word ends on a stack: there are too few values, a value is of a wrong type, the
word leaves its result in the place of its inputs, or the result does not fit and as much of it as
does is left. -/
inductive Ends (word : CoreWord) (s : Stack) : EStateM.Result Error Stack Unit → Prop where
  | short {error : Error} {last : Stack} (few : s.depth < word.inputCount)
      (other : ∀ stack limit, error ≠ .stackOverflow stack limit) :
      Ends word s (.error error last)
  | refused {error : Error} {left : List Value} {v : Value} (enough : word.inputCount ≤ s.depth)
      (member : v ∈ s.top word.inputCount) (wrong : word.accepts v = false)
      (fewer : left.length ≤ word.inputCount)
      (other : ∀ stack limit, error ≠ .stackOverflow stack limit) :
      Ends word s (.error error (s.replaceTop word.inputCount left))
  | made (enough : word.inputCount ≤ s.depth)
      (accepted : ∀ v ∈ s.top word.inputCount, word.accepts v = true)
      (fits : s.depth - word.inputCount + word.outputCount ≤ s.limit) :
      Ends word s (.ok () (s.replaceTop word.inputCount (word.result (s.top word.inputCount))))
  | full (enough : word.inputCount ≤ s.depth)
      (accepted : ∀ v ∈ s.top word.inputCount, word.accepts v = true)
      (overflow : s.limit < s.depth - word.inputCount + word.outputCount) :
      Ends word s (.error (.stackOverflow s.name s.limit)
        (s.replaceTop word.inputCount
          ((word.result (s.top word.inputCount)).take (s.limit - (s.depth - word.inputCount)))))

/-- A core word ends in one of the four ways. -/
theorem ends_run {word : CoreWord} (not_depth : word ≠ .depth) (not_clear : word ≠ .clear)
    {s : Stack} (within : s.depth ≤ s.limit) : Ends word s (word.run s) := by
  have replaces := replaces_run not_depth not_clear
  by_cases enough : word.inputCount ≤ s.depth
  · have run_eq := congrArg word.run (s.replaceTop_top word.inputCount).symm
    rw [Stack.replaceTop] at run_eq
    have counted : (s.top word.inputCount).reverse.length = word.inputCount := by
      rw [List.length_reverse, Stack.length_top enough]
    have lower : (s.below word.inputCount).reverse.length = s.depth - word.inputCount := by
      rw [List.length_reverse, Stack.length_below]
    have reversed := List.reverse_reverse (s.top word.inputCount)
    by_cases accepted : ∀ v ∈ s.top word.inputCount, word.accepts v = true
    · have made : word.makes (s.top word.inputCount).reverse.reverse =
          some (word.result (s.top word.inputCount)) := by
        rw [reversed, makes_of_accepted accepted]
      have length := length_result not_depth not_clear (Stack.length_top enough) accepted
      by_cases fits : s.depth - word.inputCount + word.outputCount ≤ s.limit
      · rw [run_eq, replaces.made s.name counted made (by rw [lower, length]; exact fits)]
        exact .made enough accepted fits
      · have overflow := Nat.not_le.mp fits
        have exceeds : s.limit < (s.below word.inputCount).reverse.length +
            (word.result (s.top word.inputCount)).length := by
          rwa [lower, length]
        rw [run_eq, replaces.full s.name counted made (by omega) exceeds, lower]
        exact .full enough accepted overflow
    · simp only [not_forall, Bool.not_eq_true] at accepted
      obtain ⟨v, member, wrong⟩ := accepted
      have none_made : word.makes (s.top word.inputCount).reverse.reverse = none := by
        rw [reversed, makes_of_refused member wrong]
      obtain ⟨error, left, failed, fewer, other⟩ :=
        replaces.refused s.name s.limit (s.below word.inputCount).reverse counted none_made
      rw [run_eq, failed, ← List.reverse_reverse left]
      exact .refused enough member wrong (by rwa [List.length_reverse]) other
  · obtain ⟨error, last, failed, other⟩ := replaces.short (Nat.not_le.mp enough)
    rw [failed]
    exact .short (Nat.not_le.mp enough) other

end CoreWord

end WordMachine
