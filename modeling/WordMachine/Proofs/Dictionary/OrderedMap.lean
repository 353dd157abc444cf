import Mathlib.Data.List.Induction
import Mathlib.Data.List.Nodup
import Mathlib.Logic.Function.Basic
import WordMachine.Proofs.Dictionary

/-! # A dictionary is an ordered map

An ordered map keeps its words in a table by name and, apart from it, a list of the names
in the order in which they were introduced. Every operation updates the two one after the
other and hands back what it has changed until then, also when it fails, and reading the map
in order passes over a name that the table lacks. So nothing but their agreement keeps words
from being hidden.

A dictionary keeps one list of words instead. Both answer every sequence of operations
alike, and every way to read the dictionary shows what the table and the list of names hold.
-/

namespace WordMachine

/-! ## Operations and their log -/

/-- An operation on a store of words, with its time where it stamps one. -/
inductive StoreOperation where
  | define (now : Instant) (name : String) (definition : Definition)
  | forget (name : String)
  | resolve (name : String)
  | duplicate (now : Instant)

/-- What an operation answers. -/
inductive StoreAnswer where
  | done
  | word (word : Word)
  | body (body : Body)
  | missing
  | error (error : Error)

/-- The operations of a store of words. Each hands back the store, also when it fails. -/
structure WordStore (σ : Type) where
  define : σ → Instant → String → Definition → Except Error Unit × σ
  forget : σ → String → Except Error Word × σ
  resolve : σ → String → Option Body × σ
  duplicate : σ → Instant → Except Error Unit × σ

/-- Operations that were performed, each with its answer. -/
abbrev StoreLog := List (StoreOperation × StoreAnswer)

namespace WordStore

variable {σ : Type} (store : WordStore σ)

/-- What an operation answers and leaves. A copy takes the place of what it was made from. -/
def perform (state : σ) : StoreOperation → StoreAnswer × σ
  | .define now name definition =>
    match store.define state now name definition with
    | (.ok _, next) => (.done, next)
    | (.error error, next) => (.error error, next)
  | .forget name =>
    match store.forget state name with
    | (.ok word, next) => (.word word, next)
    | (.error error, next) => (.error error, next)
  | .resolve name =>
    match store.resolve state name with
    | (some body, next) => (.body body, next)
    | (none, next) => (.missing, next)
  | .duplicate now =>
    match store.duplicate state now with
    | (.ok _, next) => (.done, next)
    | (.error error, next) => (.error error, next)

/-- The log of operations that are performed in a row, and what they leave. -/
def performAll (start : σ) (operations : List StoreOperation) : StoreLog × σ :=
  operations.foldl
    (fun (log, state) operation =>
      let (answer, next) := store.perform state operation
      (log ++ [(operation, answer)], next))
    ([], start)

/-- One more operation comes last in the log. -/
theorem performAll_concat (start : σ) (operations : List StoreOperation)
    (operation : StoreOperation) :
    store.performAll start (operations ++ [operation]) =
      let (log, state) := store.performAll start operations
      let (answer, next) := store.perform state operation
      (log ++ [(operation, answer)], next) := by
  rw [performAll, List.foldl_concat]
  rfl

end WordStore

/-! ## Ordered maps -/

/-- A table of words by name and the order of its names, with the limit of histories. -/
structure OrderedMap where
  table : String → Option Word
  order : List String
  historyLimit : Nat

namespace OrderedMap

/-- The ordered map without words. -/
def empty (historyLimit : Nat) : OrderedMap :=
  ⟨fun _ => none, [], historyLimit⟩

/-- Whether the table has a name. -/
def contains (t : OrderedMap) (name : String) : Bool :=
  (t.table name).isSome

/-- How many names are in order. -/
def size (t : OrderedMap) : Nat :=
  t.order.length

/-- The words in order. A name that the table lacks is passed over. -/
def iter (t : OrderedMap) : List Word :=
  t.order.filterMap t.table

/-- The names of the words in order, of one category or of all. -/
def list (t : OrderedMap) (category : Option Category) : List String :=
  (t.iter.filter fun w => category.all fun c => w.category == c).map Word.name

/-- Puts a word into the table; the order stays. -/
def store (t : OrderedMap) (name : String) (word : Word) : OrderedMap :=
  { t with table := Function.update t.table name (some word) }

/-- Only the last word stored under a name counts. -/
theorem store_store (t : OrderedMap) (name : String) (first second : Word) :
    (t.store name first).store name second = t.store name second := by
  simp only [store, Function.update_idem]

/-- Takes a name out of the order; the table stays. -/
def unlist (t : OrderedMap) (name : String) : OrderedMap :=
  { t with order := t.order.filter (· != name) }

/-- Takes the word of a name out of the table; the order stays. It fails on a name that the table
lacks. -/
def remove (t : OrderedMap) (name : String) : Except Error Word × OrderedMap :=
  match t.table name with
  | some word => (.ok word, { t with table := Function.update t.table name none })
  | none => (.error (.unknownWord name), t)

/-- Defines a name. A new name goes last in the order before its word is stored, and a known one
has its word replaced before the history of the new word is set. -/
def define (t : OrderedMap) (now : Instant) (name : String) (definition : Definition) :
    Except Error Unit × OrderedMap :=
  if name = "" then (.error (.invalidName name), t)
  else
    let word := definition.toWord name now
    match t.table name with
    | some old =>
      if old.isProtected then (.error (.protectedWord name), t)
      else
        let replaced := t.store name word
        let inherited := if definition.metadata.isNone then old.history else word.history
        let history := Dictionary.newest t.historyLimit (inherited ++ [⟨old.withoutHistory, now⟩])
        (.ok (), replaced.store name { word with history })
    | none => (.ok (), { t with order := t.order ++ [name] }.store name word)

/-- Forgets a name in the order and then in the table. -/
def forget (t : OrderedMap) (name : String) : Except Error Word × OrderedMap :=
  match t.table name with
  | none => (.error (.unknownWord name), t)
  | some word =>
    if word.isProtected then (.error (.protectedWord name), t)
    else (t.unlist name).remove name

/-- Counts a use in the table. -/
def resolve? (t : OrderedMap) (name : String) : Option Body × OrderedMap :=
  match t.table name with
  | some word => (some word.body, t.store name word.used)
  | none => (none, t)

/-- Defines words again, one after the other, up to the first that fails. -/
def defineAll (t : OrderedMap) (now : Instant) : List Word → Except Error Unit × OrderedMap
  | [] => (.ok (), t)
  | w :: ws =>
    match t.define now w.name (.ofWord w) with
    | (.ok _, next) => next.defineAll now ws
    | (.error error, next) => (.error error, next)

/-- A copy, made by defining the words that are read in order. What was copied before a failure is
given up. -/
def duplicate (t : OrderedMap) (now : Instant) : Except Error Unit × OrderedMap :=
  match (empty t.historyLimit).defineAll now t.iter with
  | (.ok _, copy) => (.ok (), copy)
  | (.error error, _) => (.error error, t)

/-- Ordered maps as stores of words. -/
def operations : WordStore OrderedMap :=
  ⟨define, forget, resolve?, duplicate⟩

/-- The order and the table of an ordered map agree: the names in order are distinct and not
empty, they are the names that the table has, and every word stands under its own name. -/
structure Valid (t : OrderedMap) : Prop where
  distinct : t.order.Nodup
  keys : ∀ name, name ∈ t.order ↔ (t.table name).isSome = true
  named : ∀ name word, t.table name = some word → word.name = name
  nonempty : ∀ name ∈ t.order, name ≠ ""

/-- An operation that fails leaves the table and the order of an ordered map as they were, so none
fails between its updates. -/
def KeptByFailure (t : OrderedMap) : Prop :=
  ∀ operation error after, operations.perform t operation = (.error error, after) → after = t

end OrderedMap

namespace Dictionary

/-- What a change to a dictionary answers, and the dictionary that is there afterwards. A change
that fails has nothing to leave, so the dictionary is the one that it was asked of. -/
def handBack {α : Type} (d : Dictionary) :
    Except Error (α × Dictionary) → Except Error α × Dictionary
  | .ok (answer, next) => (.ok answer, next)
  | .error error => (.error error, d)

/-- Dictionaries as stores of words. -/
def operations : WordStore Dictionary where
  define d now name definition := d.handBack ((d.define now name definition).map ((), ·))
  forget d name := d.handBack (d.forget name)
  resolve d name :=
    match d.resolve? name with
    | some (body, next) => (some body, next)
    | none => (none, d)
  duplicate d now := d.handBack ((d.duplicate now).map ((), ·))

/-- Every way to read a dictionary shows what an ordered map holds, and reading the map in
order passes over no name. -/
structure Shows (d : Dictionary) (t : OrderedMap) : Prop where
  find : ∀ name, d.find? name = t.table name
  contains : ∀ name, d.contains name = t.contains name
  size : d.size = t.size
  names : d.names = t.list none
  namesIn : ∀ category, d.namesIn category = t.list (some category)
  words : d.words = t.iter
  order : t.iter.map Word.name = t.order
  limit : d.historyLimit = t.historyLimit

/-! ## The ordered map of a dictionary -/

/-- The ordered map that a dictionary shows. -/
def view (d : Dictionary) : OrderedMap :=
  ⟨d.find?, d.names, d.historyLimit⟩

/-- The view lists the words of the dictionary. -/
theorem WellNamed.iter_view {d : Dictionary} (named : d.WellNamed) : d.view.iter = d.words := by
  have found : ∀ w ∈ d.words, d.find? w.name = some w := fun w member =>
    find?_of_mem named.distinct member
  calc d.view.iter
      = d.words.filterMap fun w => d.find? w.name := List.filterMap_map
    _ = d.words.filterMap some := List.filterMap_congr found
    _ = d.words := List.filterMap_some

/-- The view of a dictionary with distinct names is valid. -/
theorem WellNamed.valid_view {d : Dictionary} (named : d.WellNamed) : d.view.Valid where
  distinct := named.distinct
  keys _ := find?_isSome_iff.symm
  named _ _ found := name_of_find? found
  nonempty _ member empty := named.nonempty (empty ▸ member)

/-- A dictionary shows its view. -/
theorem WellNamed.shows_view {d : Dictionary} (named : d.WellNamed) : d.Shows d.view where
  find _ := rfl
  contains _ := rfl
  size := (List.length_map _).symm
  names := by
    have all : (d.words.filter fun _ => true) = d.words := List.filter_eq_self.mpr fun _ _ => rfl
    rw [OrderedMap.list, named.iter_view]
    exact congrArg (List.map Word.name) all.symm
  namesIn category := by
    rw [OrderedMap.list, named.iter_view]
    rfl
  words := named.iter_view.symm
  order := by
    rw [named.iter_view]
    rfl
  limit := rfl

/-- The word that a redefinition leaves, with the name spelled out. -/
theorem supersede_eq (limit : Nat) (now : Instant) (definition : Definition) {old : Word}
    {name : String} (named : old.name = name) :
    supersede limit now definition old =
      { definition.toWord name now with
        history := newest limit
          ((if definition.metadata.isNone then old.history
            else (definition.toWord name now).history) ++ [⟨old.withoutHistory, now⟩]) } := by
  subst named
  rfl

/-- A definition that succeeds stores the word, behind all others if it is new. -/
theorem view_afterDefine (d : Dictionary) (now : Instant) (name : String)
    (definition : Definition) :
    (d.afterDefine now name definition).view =
      { d.view with
        order := if name ∈ d.names then d.names else d.names ++ [name] }.store name
          (d.wordDefined now name definition) := by
  have table : (d.afterDefine now name definition).find? =
      Function.update d.find? name (some (d.wordDefined now name definition)) := by
    funext other
    rw [find?_afterDefine, Function.update_apply]
  rw [view, table, names_afterDefine, afterDefine_historyLimit]
  rfl

/-- Definitions answer alike and leave a dictionary and its view. -/
theorem view_define (d : Dictionary) (now : Instant) (name : String) (definition : Definition) :
    d.view.define now name definition =
      Prod.map id view (operations.define d now name definition) := by
  change _ = Prod.map id view (d.handBack ((d.define now name definition).map ((), ·)))
  rw [define_eq]
  unfold OrderedMap.define
  by_cases empty : name = ""
  · rw [if_pos empty, if_pos empty]
    rfl
  · rw [if_neg empty, if_neg empty]
    have after := view_afterDefine d now name definition
    cases found : d.find? name with
    | none =>
        have table : d.view.table name = none := found
        have fresh : name ∉ d.names := find?_eq_none_iff.mp found
        rw [if_neg fresh, wordDefined, found] at after
        rw [protects, found, table, Option.any_none, if_neg Bool.false_ne_true]
        exact congrArg (Prod.mk _) after.symm
    | some old =>
        have table : d.view.table name = some old := found
        have known : name ∈ d.names := find?_isSome_iff.mp (by rw [found]; rfl)
        rw [if_pos known, wordDefined, found] at after
        rw [protects, found, table, Option.any_some]
        cases guarded : old.isProtected with
        | true =>
            simp only [guarded, ↓reduceIte]
            rfl
        | false =>
            simp only [guarded, Bool.false_eq_true, ↓reduceIte, OrderedMap.store_store]
            simp only [supersede_eq _ _ _ (name_of_find? found)] at after
            exact congrArg (Prod.mk _) after.symm

/-- Forgetting answers alike on both sides and leaves a dictionary and its view. -/
theorem view_forget (d : Dictionary) (name : String) :
    d.view.forget name = Prod.map id view (operations.forget d name) := by
  change _ = Prod.map id view (d.handBack (d.forget name))
  unfold OrderedMap.forget
  cases found : d.find? name with
  | none =>
      have table : d.view.table name = none := found
      rw [table, forget, found]
      rfl
  | some word =>
      have table : d.view.table name = some word := found
      rw [table, forget, found]
      cases guarded : word.isProtected with
      | true =>
          simp only [guarded, ↓reduceIte]
          rfl
      | false =>
          have left :
              ({ d with words := d.words.filter fun w => w.name != name } : Dictionary).find? =
                Function.update d.find? name none := by
            funext other
            rw [Function.update_apply]
            split
            · next same =>
                rw [find?_eq_none_iff, names_filter_ne, same]
                simp
            · next apart => exact find?_filter_ne d apart
          -- The second look at the table finds the word again, so taking it out cannot fail.
          have again : (d.view.unlist name).table name = some word := found
          rw [OrderedMap.remove, again]
          simp only [guarded, Bool.false_eq_true, ↓reduceIte, handBack, Prod.map_apply, id_eq, view,
            left, names_filter_ne, OrderedMap.unlist]

/-- A use answers alike on both sides and leaves a dictionary and its view. -/
theorem view_resolve? (d : Dictionary) (name : String) :
    d.view.resolve? name = Prod.map id view (operations.resolve d name) := by
  unfold OrderedMap.resolve?
  cases found : d.find? name with
  | none =>
      have table : d.view.table name = none := found
      have unresolved : d.resolve? name = none := by
        rw [resolve?, found]
        rfl
      simp only [table, operations, unresolved, Prod.map_apply, id_eq]
  | some word =>
      have table : d.view.table name = some word := found
      have resolved : d.resolve? name =
          some (word.body, { d with words := replace d.words name Word.used }) := by
        rw [resolve?, found]
        rfl
      have counted : ({ d with words := replace d.words name Word.used } : Dictionary).find? =
          Function.update d.find? name (some word.used) := by
        funext other
        rw [find?_resolve resolved, Function.update_apply]
        by_cases same : other = name
        · rw [if_pos same, same, found, Option.map_some, name_of_find? found,
            if_pos (beq_self_eq_true name)]
        · rw [if_neg same]
          cases present : d.find? other with
          | none => rfl
          | some w => simp [name_of_find? present, same]
      rw [table]
      simp only [operations, resolved, Prod.map_apply, id_eq, view, counted,
        names_resolve resolved, OrderedMap.store]

/-- Defining words again ends alike on both sides, and if it succeeds it leaves a dictionary and its
view. -/
theorem view_defineAll (d : Dictionary) (now : Instant) (words : List Word) :
    match d.defineAll now words with
    | .ok copy => d.view.defineAll now words = (.ok (), copy.view)
    | .error error => (d.view.defineAll now words).1 = .error error := by
  induction words generalizing d with
  | nil => rfl
  | cons w rest ih =>
      have step := view_define d now w.name (.ofWord w)
      simp only [operations] at step
      unfold OrderedMap.defineAll defineAll
      cases defined : d.define now w.name (.ofWord w) with
      | ok next =>
          rw [defined] at step
          simp only [step, handBack, Except.map, Prod.map_apply, id_eq]
          exact ih next
      | error error =>
          rw [defined] at step
          simp only [step, handBack, Except.map, Prod.map_apply, id_eq]

/-- Copies are made of the same words on both sides. -/
theorem WellNamed.view_duplicate {d : Dictionary} (named : d.WellNamed) (now : Instant) :
    d.view.duplicate now = Prod.map id view (operations.duplicate d now) := by
  have copied := view_defineAll (empty d.historyLimit) now d.words
  simp only [named.duplicate_eq, operations, handBack, Except.map, Prod.map_apply, id_eq]
  rw [← duplicate, named.duplicate_eq] at copied
  rw [OrderedMap.duplicate, named.iter_view]
  change (match (empty d.historyLimit).view.defineAll now d.words with
    | (.ok _, copy) => (Except.ok (), copy)
    | (.error error, _) => (.error error, d.view)) = _
  rw [copied]

/-! ## Steps and runs -/

/-- One operation: the ordered map of a dictionary answers like it and becomes the ordered map
of what the dictionary becomes. -/
theorem WellNamed.perform_view {d : Dictionary} (named : d.WellNamed)
    (operation : StoreOperation) :
    OrderedMap.operations.perform d.view operation =
      ((operations.perform d operation).1, (operations.perform d operation).2.view) := by
  cases operation with
  | define now name definition =>
      simp only [WordStore.perform, OrderedMap.operations, view_define]
      obtain ⟨_ | _, next⟩ := operations.define d now name definition <;> rfl
  | forget name =>
      simp only [WordStore.perform, OrderedMap.operations, view_forget]
      obtain ⟨_ | _, next⟩ := operations.forget d name <;> rfl
  | resolve name =>
      simp only [WordStore.perform, OrderedMap.operations, view_resolve?]
      obtain ⟨_ | _, next⟩ := operations.resolve d name <;> rfl
  | duplicate now =>
      simp only [WordStore.perform, OrderedMap.operations, named.view_duplicate]
      obtain ⟨_ | _, next⟩ := operations.duplicate d now <;> rfl

/-- A definition fails and changes nothing, or it succeeds with the new word in place. -/
theorem perform_define (d : Dictionary) (now : Instant) (name : String) (definition : Definition) :
    (∃ error, operations.perform d (.define now name definition) = (.error error, d)) ∨
      d.define now name definition = .ok (d.afterDefine now name definition) ∧
        operations.perform d (.define now name definition) =
          (.done, d.afterDefine now name definition) := by
  simp only [WordStore.perform, operations]
  cases defined : d.define now name definition with
  | error error => exact .inl ⟨error, rfl⟩
  | ok next =>
      obtain ⟨_, _, rfl⟩ := define_ok_iff.mp defined
      exact .inr ⟨rfl, rfl⟩

/-- Forgetting fails and changes nothing, or it gives the word and leaves the others. -/
theorem perform_forget (d : Dictionary) (name : String) :
    (∃ error, operations.perform d (.forget name) = (.error error, d)) ∨
      ∃ word next, d.forget name = .ok (word, next) ∧
        operations.perform d (.forget name) = (.word word, next) := by
  simp only [WordStore.perform, operations]
  cases d.forget name with
  | error error => exact .inl ⟨error, rfl⟩
  | ok result => exact .inr ⟨result.1, result.2, rfl, rfl⟩

/-- A use of an unknown name changes nothing. -/
theorem perform_resolve (d : Dictionary) (name : String) :
    operations.perform d (.resolve name) = (.missing, d) ∨
      ∃ body next, d.resolve? name = some (body, next) ∧
        operations.perform d (.resolve name) = (.body body, next) := by
  simp only [WordStore.perform, operations]
  cases d.resolve? name with
  | none => exact .inl rfl
  | some result => exact .inr ⟨result.1, result.2, rfl, rfl⟩

/-- A dictionary is its own copy. -/
theorem WellNamed.perform_duplicate {d : Dictionary} (named : d.WellNamed) (now : Instant) :
    operations.perform d (.duplicate now) = (.done, d) := by
  simp only [WordStore.perform, operations, named.duplicate_eq]
  rfl

/-- Every operation keeps names distinct and not empty. -/
theorem WellNamed.perform {d : Dictionary} (named : d.WellNamed) (operation : StoreOperation) :
    (operations.perform d operation).2.WellNamed := by
  cases operation with
  | define now name definition =>
      obtain ⟨_, performed⟩ | ⟨defined, performed⟩ := perform_define d now name definition <;>
        rw [performed]
      · exact named
      · exact named.define defined
  | forget name =>
      obtain ⟨_, performed⟩ | ⟨_, _, forgotten, performed⟩ := perform_forget d name <;>
        rw [performed]
      · exact named
      · exact named.forget forgotten
  | resolve name =>
      obtain performed | ⟨_, _, resolved, performed⟩ := perform_resolve d name <;>
        rw [performed]
      · exact named
      · exact named.resolve resolved
  | duplicate now =>
      rw [named.perform_duplicate]
      exact named

theorem wellNamed_empty (limit : Nat) : (empty limit).WellNamed :=
  ⟨List.nodup_nil, List.not_mem_nil⟩

theorem wellNamed_performAll (limit : Nat) (sequence : List StoreOperation) :
    (operations.performAll (empty limit) sequence).2.WellNamed := by
  induction sequence using List.reverseRecOn with
  | nil => exact wellNamed_empty limit
  | append_singleton before operation ih =>
      rw [WordStore.performAll_concat]
      exact ih.perform operation

/-- Every sequence of operations: the ordered map has the same log and becomes the ordered map
of the dictionary. -/
theorem performAll_view (limit : Nat) (sequence : List StoreOperation) :
    OrderedMap.operations.performAll (.empty limit) sequence =
      ((operations.performAll (empty limit) sequence).1,
        (operations.performAll (empty limit) sequence).2.view) := by
  induction sequence using List.reverseRecOn with
  | nil => rfl
  | append_singleton before operation ih =>
      have step := (wellNamed_performAll limit before).perform_view operation
      rw [WordStore.performAll_concat, WordStore.performAll_concat, ih]
      simp only [step]

end Dictionary

end WordMachine
