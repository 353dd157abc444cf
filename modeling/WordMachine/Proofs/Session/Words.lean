import WordMachine.Proofs.Snapshot.Save
import WordMachine.Proofs.Snapshot.Text

/-! # Words of two sessions in step

Two dictionaries are in step if their library words are copies of the same words, one by
one, and the user words that follow are stored alike. Use counts of library words may
differ, because no snapshot holds them. Every operation of a session keeps dictionaries in
step: it never touches a library word but to count a use.
-/

namespace WordMachine

/-! ## Plain words -/

/-- A stored word is plain if neither it nor a version of it is native and its versions
have no versions of their own. -/
structure StoredWord.Plain (w : StoredWord) : Prop where
  body : w.body ≠ Snapshot.nativeSentinel
  versions : ∀ revision ∈ w.history,
    revision.word.body ≠ Snapshot.nativeSentinel ∧ revision.word.history = []

namespace Snapshot

/-- Nothing is taken out of a plain history. -/
theorem prunedHistory_of_plain {history : List StoredRevision}
    (versions : ∀ revision ∈ history,
      revision.word.body ≠ nativeSentinel ∧ revision.word.history = []) :
    prunedHistory history = history := by
  induction history with
  | nil => rw [prunedHistory]
  | cons revision rest ih =>
      rw [List.forall_mem_cons] at versions
      obtain ⟨⟨compiled, flat⟩, others⟩ := versions
      obtain ⟨⟨name, effect, body, immediate, defined, usage, history, documentation⟩, redefined⟩ :=
        revision
      subst flat
      rw [prunedHistory_of_compiled compiled, ih others, prunedWord_eq, prunedHistory]

/-- Nothing is taken out of a plain word. -/
theorem prunedWord_of_plain {w : StoredWord} (plain : w.Plain) : prunedWord w = w := by
  have versions := prunedHistory_of_plain plain.versions
  cases w
  rw [prunedWord, versions]

/-- A plain word nests seven levels deep at most. -/
theorem wordLevels_le_of_plain {w : StoredWord} (plain : w.Plain) : wordLevels w ≤ 7 :=
  wordLevels_le_of_flat fun revision member => (plain.versions revision member).2

/-! ## What is stored of changed words -/

/-- A use is stored as one more use. -/
theorem ofWord_used (w : Word) :
    ofWord w.used = { ofWord w with usage := (ofWord w).usage + 1 } := by
  obtain ⟨name, effect, body, immediate, isProtected, category, defined, usage, documentation,
    history⟩ := w
  simp only [Word.used, ofWord]

/-- A word without its history is stored without it. -/
theorem ofWord_withoutHistory (w : Word) :
    ofWord w.withoutHistory = { ofWord w with history := [] } := by
  cases w
  simp only [Word.withoutHistory, ofWord, ofHistory]

/-- The stored history of a word that superseded another: it depends on the stored form of
the other alone. -/
def supersededHistory (limit : Nat) (now : Instant) (old : StoredWord) : List StoredRevision :=
  let versions := old.history ++ [⟨{ old with history := [] }, now⟩]
  versions.drop (versions.length - limit)

/-- A redefined word is stored with the old one at the end of its history. -/
theorem ofWord_supersede (limit : Nat) (now : Instant) {definition : Definition}
    (unrecorded : definition.metadata = none) (old : Word) :
    ofWord (Dictionary.supersede limit now definition old) =
      { ofWord (definition.toWord old.name now) with
        history := supersededHistory limit now (ofWord old) } := by
  have history : ofHistory (Dictionary.newest limit
      (old.history ++ [⟨old.withoutHistory, now⟩])) =
      supersededHistory limit now (ofWord old) := by
    simp only [Dictionary.newest, supersededHistory, ofHistory_eq_map, List.map_drop,
      List.map_append, List.map_cons, List.map_nil, ofWord_withoutHistory, ofWord_history,
      List.length_append, List.length_map, List.length_cons, List.length_nil]
  simp only [Dictionary.supersede, unrecorded, Option.isNone_none, if_true, ofWord, history,
    Definition.toWord]

/-- A use keeps a word plain. -/
theorem plain_ofWord_used {w : Word} (plain : (ofWord w).Plain) : (ofWord w.used).Plain := by
  rw [ofWord_used]
  exact ⟨plain.body, plain.versions⟩

/-- A compiled word that supersedes a plain one is plain. -/
theorem plain_ofWord_supersede (limit : Nat) (now : Instant) {definition : Definition}
    (unrecorded : definition.metadata = none) {tokens : List String}
    (body : definition.body = .compiled tokens) {old : Word} (plain : (ofWord old).Plain) :
    (ofWord (Dictionary.supersede limit now definition old)).Plain := by
  rw [ofWord_supersede limit now unrecorded]
  constructor
  · have made : (ofWord (definition.toWord old.name now)).body = bodyText (.compiled tokens) := by
      rw [ofWord_body, Definition.toWord, body]
    rw [made]
    exact bodyText_compiled_ne tokens
  · intro revision member
    have listed := List.mem_of_mem_drop member
    rw [List.mem_append, List.mem_singleton] at listed
    rcases listed with earlier | rfl
    · exact plain.versions revision earlier
    · exact ⟨plain.body, rfl⟩

/-- Bodies that are stored alike and not native act alike. -/
theorem actsLike_of_stored {w w' : Word} (compiled : (ofWord w).body ≠ nativeSentinel)
    (stored : ofWord w' = ofWord w) : w.body.ActsLike w'.body := by
  obtain ⟨tokens, body⟩ := exists_tokens_of_ofWord compiled
  rw [← stored] at compiled
  obtain ⟨tokens', body'⟩ := exists_tokens_of_ofWord compiled
  have texts := congrArg StoredWord.body stored
  rw [ofWord_body, ofWord_body, body, body'] at texts
  rw [body, body']
  exact (bodyText_compiled_injective texts).symm

end Snapshot

/-! ## Words in step -/

namespace Session

open Snapshot (ofWord)

/-- The native actions of a session: a host puts none of its own behind a word. -/
def OfLibrary : Action → Prop
  | .host _ => False
  | _ => True

/-- A library word of a session is a copy of an installed one, but for its records. -/
structure Copy (original w : Word) : Prop where
  name : w.name = original.name
  isProtected : w.isProtected = true
  category : w.category ≠ .user
  acts : ∃ action identity identity', OfLibrary action ∧
    original.body = .native ⟨identity, action⟩ ∧ w.body = .native ⟨identity', action⟩

/-- Words that a session defined, stored alike. -/
structure Alike (w w' : Word) : Prop where
  unprotected : w.isProtected = false
  unprotected' : w'.isProtected = false
  category : w.category = .user
  category' : w'.category = .user
  plain : (ofWord w).Plain
  stored : ofWord w' = ofWord w

/-- Dictionaries in step: copies of the originals first, then words that are stored
alike. -/
inductive InStep : (originals words words' : List Word) → Prop where
  | nil : InStep [] [] []
  | user {w w' : Word} {ws ws' : List Word} :
      Alike w w' → InStep [] ws ws' → InStep [] (w :: ws) (w' :: ws')
  | library {original w w' : Word} {originals ws ws' : List Word} :
      Copy original w → Copy original w' → InStep originals ws ws' →
        InStep (original :: originals) (w :: ws) (w' :: ws')

/-- A copy stays one when it is used. -/
theorem Copy.used {original w : Word} (copy : Copy original w) : Copy original w.used :=
  ⟨copy.name, copy.isProtected, copy.category, copy.acts⟩

namespace Alike

variable {w w' : Word}

theorem name (alike : Alike w w') : w'.name = w.name := by
  have names := congrArg StoredWord.name alike.stored
  rwa [Snapshot.ofWord_name, Snapshot.ofWord_name] at names

/-- Words in step stay so when both are used. -/
theorem used (alike : Alike w w') : Alike w.used w'.used where
  unprotected := alike.unprotected
  unprotected' := alike.unprotected'
  category := alike.category
  category' := alike.category'
  plain := Snapshot.plain_ofWord_used alike.plain
  stored := by rw [Snapshot.ofWord_used, Snapshot.ofWord_used, alike.stored]

/-- A new word of a session is stored as it is. -/
theorem defined (name : String) (effect : Option String) (tokens : List String) (now : Instant) :
    let definition : Definition := { effect, body := .compiled tokens }
    Alike (definition.toWord name now) (definition.toWord name now) where
  unprotected := rfl
  unprotected' := rfl
  category := rfl
  category' := rfl
  plain := by
    refine ⟨?_, ?_⟩
    · rw [Snapshot.ofWord_body]
      exact Snapshot.bodyText_compiled_ne tokens
    · rw [Snapshot.ofWord_history, show (Definition.toWord _ _ _).history = [] from rfl,
        Snapshot.ofHistory]
      exact fun _ member => nomatch member
  stored := rfl

/-- Words that supersede words which are stored alike are stored alike. -/
theorem supersede (alike : Alike w w') (limit : Nat) (now : Instant) (effect : Option String)
    (tokens : List String) :
    let definition : Definition := { effect, body := .compiled tokens }
    Alike (Dictionary.supersede limit now definition w)
      (Dictionary.supersede limit now definition w') where
  unprotected := rfl
  unprotected' := rfl
  category := rfl
  category' := rfl
  plain := Snapshot.plain_ofWord_supersede limit now rfl rfl alike.plain
  stored := by
    rw [Snapshot.ofWord_supersede limit now rfl, Snapshot.ofWord_supersede limit now rfl,
      alike.stored, alike.name]

end Alike

/-! ## What a machine sees of a word -/

/-- Words that a machine cannot tell apart. -/
structure Matches (w w' : Word) : Prop where
  name : w'.name = w.name
  isProtected : w'.isProtected = w.isProtected
  acts : w.body.ActsLike w'.body
  admitted : w.body.Admitted OfLibrary

/-- Two copies of one word look alike to a machine. -/
theorem Copy.matches {original w w' : Word} (copy : Copy original w) (copy' : Copy original w') :
    Matches w w' := by
  obtain ⟨action, identity, own, native, body, copied⟩ := copy.acts
  obtain ⟨action', identity', own', _, body', copied'⟩ := copy'.acts
  rw [body, Body.native.injEq, Native.mk.injEq] at body'
  refine ⟨?_, ?_, ?_, ?_⟩
  · rw [copy.name, copy'.name]
  · rw [copy.isProtected, copy'.isProtected]
  · rw [copied, copied']
    exact body'.2
  · rw [copied]
    exact native

/-- Words in step look alike to a machine. -/
theorem Alike.matches {w w' : Word} (alike : Alike w w') : Matches w w' := by
  refine ⟨alike.name, ?_, Snapshot.actsLike_of_stored alike.plain.body alike.stored, ?_⟩
  · rw [alike.unprotected, alike.unprotected']
  · obtain ⟨tokens, body⟩ := Snapshot.exists_tokens_of_ofWord alike.plain.body
    rw [body]
    exact trivial

/-- Look-ups in lists of words that match find words that match. -/
theorem find?_of_forall₂ {ws ws' : List Word} (all : List.Forall₂ Matches ws ws') (name : String) :
    (ws.find? (fun w => w.name == name) = none ∧ ws'.find? (fun w => w.name == name) = none) ∨
      ∃ w w', ws.find? (fun w => w.name == name) = some w ∧
        ws'.find? (fun w => w.name == name) = some w' ∧ Matches w w' := by
  induction all with
  | nil => exact .inl ⟨rfl, rfl⟩
  | @cons w w' rest rest' first _ ih =>
      rw [List.find?_cons, List.find?_cons, first.name]
      cases w.name == name with
      | true => exact .inr ⟨w, w', rfl, rfl, first⟩
      | false => exact ih

/-- The user words of a dictionary. -/
def userWords (ws : List Word) : List Word :=
  ws.filter fun w => w.category == .user

theorem userWords_cons_of_user {w : Word} (user : w.category = .user) (ws : List Word) :
    userWords (w :: ws) = w :: userWords ws :=
  List.filter_cons_of_pos (by rw [user]; rfl)

theorem userWords_cons_of_library {w : Word} (library : w.category ≠ .user) (ws : List Word) :
    userWords (w :: ws) = userWords ws :=
  List.filter_cons_of_neg (by simpa using library)

namespace InStep

variable {originals ws ws' : List Word}

/-- Words in step look alike one by one. -/
theorem forall₂ (inStep : InStep originals ws ws') : List.Forall₂ Matches ws ws' := by
  induction inStep with
  | nil => exact .nil
  | user alike _ ih => exact .cons alike.matches ih
  | library copy copy' _ ih => exact .cons (copy.matches copy') ih

/-- They have the same names in the same order. -/
theorem names (inStep : InStep originals ws ws') : ws'.map Word.name = ws.map Word.name := by
  have all := inStep.forall₂
  clear inStep
  induction all with
  | nil => rfl
  | cons first _ ih => rw [List.map_cons, List.map_cons, first.name, ih]

/-- A name whose words are all unprotected is no name of the library. -/
theorem apart (inStep : InStep originals ws ws') {name : String}
    (free : ∀ w ∈ ws, w.name = name → w.isProtected = false) :
    ∀ original ∈ originals, original.name ≠ name := by
  induction inStep with
  | nil => exact fun _ member => nomatch member
  | user => exact fun _ member => nomatch member
  | @library original w w' originals ws ws' copy _ _ ih =>
      rw [List.forall_mem_cons] at free ⊢
      refine ⟨?_, ih free.2⟩
      intro same
      have unprotected := free.1 (copy.name.trans same)
      rw [copy.isProtected] at unprotected
      cases unprotected

/-- Replacing the word of a name on both sides. -/
theorem replace (inStep : InStep originals ws ws') (name : String) {f : Word → Word}
    (user : ∀ {w w'}, Alike w w' → Alike (f w) (f w'))
    (library : ∀ original ∈ originals, ∀ w, Copy original w → original.name = name →
      Copy original (f w)) :
    InStep originals (Dictionary.replace ws name f) (Dictionary.replace ws' name f) := by
  unfold Dictionary.replace
  induction inStep with
  | nil => exact .nil
  | @user w w' ws ws' alike _ ih =>
      rw [List.map_cons, List.map_cons, alike.name]
      refine .user ?_ (ih library)
      split
      · exact user alike
      · exact alike
  | @library original w w' originals ws ws' copy copy' _ ih =>
      rw [List.forall_mem_cons] at library
      rw [List.map_cons, List.map_cons, copy.name, copy'.name]
      refine .library ?_ ?_ (ih library.2)
      · split
        · next same => exact library.1 w copy (beq_iff_eq.mp same)
        · exact copy
      · split
        · next same => exact library.1 w' copy' (beq_iff_eq.mp same)
        · exact copy'

/-- A use of a name on both sides keeps the words in step. -/
theorem used (inStep : InStep originals ws ws') (name : String) :
    InStep originals (Dictionary.replace ws name Word.used)
      (Dictionary.replace ws' name Word.used) :=
  inStep.replace name Alike.used fun _ _ _ copy _ => copy.used

/-- A new word on both sides keeps the words in step. -/
theorem append (inStep : InStep originals ws ws') {w w' : Word} (alike : Alike w w') :
    InStep originals (ws ++ [w]) (ws' ++ [w']) := by
  induction inStep with
  | nil => exact .user alike .nil
  | user first _ ih => exact .user first ih
  | library copy copy' _ ih => exact .library copy copy' ih

/-- Forgetting a name that is no name of the library. -/
theorem forget (inStep : InStep originals ws ws') {name : String}
    (apart : ∀ original ∈ originals, original.name ≠ name) :
    InStep originals (ws.filter fun w => w.name != name) (ws'.filter fun w => w.name != name) := by
  induction inStep with
  | nil => exact .nil
  | @user w w' ws ws' alike _ ih =>
      rw [List.filter_cons, List.filter_cons, alike.name]
      split
      · exact .user alike (ih apart)
      · exact ih apart
  | @library original w w' originals ws ws' copy copy' _ ih =>
      rw [List.forall_mem_cons] at apart
      have kept : (original.name != name) = true := bne_iff_ne.mpr apart.1
      rw [List.filter_cons, List.filter_cons, copy.name, copy'.name, if_pos kept, if_pos kept]
      exact .library copy copy' (ih apart.2)

/-! ## What is saved and restored -/

/-- Dictionaries in step are saved alike. -/
theorem saved (inStep : InStep originals ws ws') :
    (userWords ws').map ofWord = (userWords ws).map ofWord := by
  induction inStep with
  | nil => rfl
  | user alike _ ih =>
      rw [userWords_cons_of_user alike.category, userWords_cons_of_user alike.category',
        List.map_cons, List.map_cons, alike.stored, ih]
  | library copy copy' _ ih =>
      rw [userWords_cons_of_library copy.category, userWords_cons_of_library copy'.category, ih]

/-- The user words of a session can be defined, and they are plain. -/
theorem plain (inStep : InStep originals ws ws') :
    ∀ w ∈ userWords ws, w.isProtected = false ∧ (ofWord w).Plain := by
  induction inStep with
  | nil => exact fun _ member => nomatch member
  | user alike _ ih =>
      rw [userWords_cons_of_user alike.category, List.forall_mem_cons]
      exact ⟨⟨alike.unprotected, alike.plain⟩, ih⟩
  | library copy _ _ ih =>
      rw [userWords_cons_of_library copy.category]
      exact ih

/-- Copies of the originals followed by words that are stored like the user words of a
session are in step with it. -/
theorem restored (inStep : InStep originals ws ws') {library user : List Word}
    (copies : List.Forall₂ Copy originals library)
    (alike : List.Forall₂ Alike (userWords ws) user) :
    InStep originals ws (library ++ user) := by
  induction inStep generalizing library user with
  | nil =>
      cases copies
      cases alike
      exact .nil
  | user first _ ih =>
      cases copies
      rw [userWords_cons_of_user first.category] at alike
      cases alike with
      | cons again others => exact .user again (ih .nil others)
  | library copy _ _ ih =>
      rw [userWords_cons_of_library copy.category] at alike
      cases copies with
      | cons copy' copies => exact .library copy copy' (ih copies alike)

/-- Copies of the same words are in step. -/
theorem of_copies (copies : List.Forall₂ Copy originals ws)
    (copies' : List.Forall₂ Copy originals ws') : InStep originals ws ws' := by
  induction copies generalizing ws' with
  | nil =>
      cases copies'
      exact .nil
  | cons copy _ ih =>
      cases copies' with
      | cons copy' rest => exact .library copy copy' (ih rest)

end InStep

/-- The word that a plain stored word defines is stored as it was. -/
theorem Alike.of_defines {w : Word} (unprotected : w.isProtected = false)
    (category : w.category = .user) (plain : (ofWord w).Plain) {p : String × Definition}
    (defines : Snapshot.Defines (ofWord w) p) (now : Instant) :
    Alike w (p.2.toWord p.1 now) := by
  obtain ⟨stored, user⟩ := Snapshot.ofWord_toWord_of_defines plain.body defines now
  rw [Snapshot.prunedWord_of_plain plain] at stored
  exact ⟨unprotected, defines.isProtected, category, user, plain, stored⟩

theorem forall₂_mapIdx {α β : Type} {R : β → β → Prop} {f g : Nat → α → β}
    (each : ∀ index a, R (f index a) (g index a)) (items : List α) :
    List.Forall₂ R (items.mapIdx f) (items.mapIdx g) := by
  rw [List.mapIdx_eq_zipIdx_map, List.mapIdx_eq_zipIdx_map, List.forall₂_map_left_iff,
    List.forall₂_map_right_iff, List.forall₂_same]
  exact fun p _ => each p.2 p.1

/-- Two installations of the library leave copies of the same words. -/
theorem copies_installed (identity identity' : Nat) (clock : Instant) :
    List.Forall₂ Copy (Library.installed identity clock) (Library.installed identity' clock) := by
  unfold Library.installed Library.words Library.full
  rw [List.forall₂_map_left_iff, List.forall₂_map_right_iff]
  simp only [List.flatMap_cons, List.flatMap_nil, List.append_nil]
  refine List.rel_append (forall₂_mapIdx ?_ _) (forall₂_mapIdx ?_ _)
  · intro index word
    exact ⟨rfl, rfl, nofun, .core word, _, _, trivial, rfl, rfl⟩
  · intro index word
    exact ⟨rfl, rfl, nofun, .console word, _, _, trivial, rfl, rfl⟩

end Session

end WordMachine
