import Mathlib.Data.List.Nodup
import WordMachine.Dictionary

/-! # What the dictionary operations do to look-ups and names

A dictionary is seen through `find?`, the word behind a name, and `names`, the order in
which names were introduced. Every operation is described by what it does to both, so
that later proofs never open the list of words.
-/

namespace WordMachine

namespace Dictionary

/-- A replacement that keeps names changes the word of its name and no other. -/
theorem find?_replace (words : List Word) (name other : String) (f : Word → Word)
    (kept : ∀ w, (f w).name = w.name) :
    (replace words name f).find? (fun w => w.name == other) =
      (words.find? fun w => w.name == other).map fun w => if w.name == name then f w else w := by
  induction words with
  | nil => rfl
  | cons w ws ih =>
      have same : (if w.name == name then f w else w).name = w.name := by
        split
        · exact kept w
        · rfl
      simp only [replace, List.map_cons] at ih ⊢
      rw [List.find?_cons, List.find?_cons, same]
      cases w.name == other with
      | true => rfl
      | false => exact ih

/-- A word that is replaced under its name keeps the names. -/
theorem names_replace (words : List Word) (name : String) (f : Word → Word)
    (kept : ∀ w, (f w).name = w.name) :
    (replace words name f).map Word.name = words.map Word.name := by
  simp only [replace, List.map_map]
  apply List.map_congr_left
  intro w _
  simp only [Function.comp_apply]
  split
  · exact kept w
  · rfl

/-- A word is found under its name. -/
theorem name_of_find? {d : Dictionary} {name : String} {w : Word} (found : d.find? name = some w) :
    w.name = name := by
  have named := List.find?_some found
  exact of_decide_eq_true named

theorem mem_of_find? {d : Dictionary} {name : String} {w : Word} (found : d.find? name = some w) :
    w ∈ d.words :=
  List.mem_of_find?_eq_some found

/-- A name finds nothing exactly if it is not listed. -/
theorem find?_eq_none_iff {d : Dictionary} {name : String} :
    d.find? name = none ↔ name ∉ d.names := by
  simp only [find?, names, List.find?_eq_none, beq_iff_eq, List.mem_map, not_exists, not_and]

/-- A name finds a word exactly if it is listed. -/
theorem find?_isSome_iff {d : Dictionary} {name : String} :
    (d.find? name).isSome = true ↔ name ∈ d.names := by
  rw [← Option.ne_none_iff_isSome, Ne, find?_eq_none_iff, not_not]

/-- With distinct names, every word is the one found under its name. -/
theorem find?_of_mem {d : Dictionary} (distinct : d.names.Nodup) {w : Word} (member : w ∈ d.words) :
    d.find? w.name = some w := by
  obtain ⟨words, limit⟩ := d
  simp only [names, find?] at *
  induction words with
  | nil => cases member
  | cons first rest ih =>
      simp only [List.map_cons, List.nodup_cons, List.mem_map, not_exists, not_and] at distinct
      rcases List.mem_cons.mp member with rfl | later
      · simp only [List.find?_cons, beq_self_eq_true]
      · have apart : (first.name == w.name) = false := by
          simpa using fun same => distinct.1 w later same.symm
        simp only [List.find?_cons, apart]
        exact ih distinct.2 later

@[simp]
theorem supersede_name (limit : Nat) (now : Instant) (definition : Definition) (old : Word) :
    (supersede limit now definition old).name = old.name := rfl

/-- The word that a definition leaves under a name. -/
def wordDefined (d : Dictionary) (now : Instant) (name : String) (definition : Definition) : Word :=
  match d.find? name with
  | none => definition.toWord name now
  | some old => supersede d.historyLimit now definition old

/-- A word is as protected as its definition says. -/
@[simp]
theorem wordDefined_isProtected (d : Dictionary) (now : Instant) (name : String)
    (definition : Definition) :
    (d.wordDefined now name definition).isProtected = definition.isProtected := by
  unfold wordDefined
  split <;> rfl

/-- Whether the word of a name is protected. -/
def protects (d : Dictionary) (name : String) : Bool :=
  (d.find? name).any Word.isProtected

/-- The dictionary after a definition that is allowed. -/
def afterDefine (d : Dictionary) (now : Instant) (name : String) (definition : Definition) :
    Dictionary :=
  match d.find? name with
  | none => { d with words := d.words ++ [definition.toWord name now] }
  | some _ => { d with words := replace d.words name (supersede d.historyLimit now definition) }

/-- A definition fails for the empty name and for a protected one, and for no other. -/
theorem define_eq (d : Dictionary) (now : Instant) (name : String) (definition : Definition) :
    d.define now name definition =
      if name = "" then .error (.invalidName name)
      else if d.protects name then .error (.protectedWord name)
      else .ok (d.afterDefine now name definition) := by
  unfold define afterDefine protects
  by_cases empty : name = ""
  · simp only [empty, ↓reduceIte]
  · simp only [empty, ↓reduceIte]
    cases d.find? name with
    | none => rfl
    | some old => cases guarded : old.isProtected <;> simp [guarded]

/-- A definition that succeeds has an unprotected name that is not empty, and its result is
`afterDefine`. -/
theorem define_ok_iff {d next : Dictionary} {now : Instant} {name : String}
    {definition : Definition} :
    d.define now name definition = .ok next ↔
      name ≠ "" ∧ d.protects name = false ∧ next = d.afterDefine now name definition := by
  rw [define_eq]
  by_cases empty : name = ""
  · simp [empty]
  · by_cases guarded : d.protects name = true
    · simp [empty, guarded]
    · simp [empty, guarded, eq_comm]

@[simp]
theorem afterDefine_historyLimit (d : Dictionary) (now : Instant) (name : String)
    (definition : Definition) :
    (d.afterDefine now name definition).historyLimit = d.historyLimit := by
  unfold afterDefine
  split <;> rfl

/-- A definition changes the word of its name and no other. -/
theorem find?_afterDefine (d : Dictionary) (now : Instant) (name other : String)
    (definition : Definition) :
    (d.afterDefine now name definition).find? other =
      if other = name then some (d.wordDefined now name definition) else d.find? other := by
  unfold afterDefine wordDefined
  cases found : d.find? name with
  | none =>
      simp only [find?, List.find?_append] at found ⊢
      by_cases same : other = name
      · subst same
        simp [found, Definition.toWord]
      · have apart : ((definition.toWord name now).name == other) = false := by
          simpa [Definition.toWord] using Ne.symm same
        simp [same, apart]
  | some old =>
      simp only [find?] at found ⊢
      rw [find?_replace _ _ _ _ fun w => supersede_name _ _ _ w]
      by_cases same : other = name
      · subst same
        have named : old.name = other := name_of_find? (d := d) found
        simp [found, named]
      · simp only [same, ↓reduceIte]
        cases other_found : d.words.find? fun w => w.name == other with
        | none => rfl
        | some w =>
            have named : w.name = other := name_of_find? (d := d) other_found
            simp [named, same]

/-- A definition puts a new name last and keeps the place of a known one. -/
theorem names_afterDefine (d : Dictionary) (now : Instant) (name : String)
    (definition : Definition) :
    (d.afterDefine now name definition).names =
      if name ∈ d.names then d.names else d.names ++ [name] := by
  unfold afterDefine
  cases found : d.find? name with
  | none =>
      rw [if_neg (find?_eq_none_iff.mp found)]
      exact List.map_append
  | some old =>
      have known : name ∈ d.names := find?_isSome_iff.mp (by rw [found]; rfl)
      rw [if_pos known]
      exact names_replace _ _ _ fun w => supersede_name _ _ _ w

/-- A definition of an unprotected word protects nothing that was not protected. -/
theorem protects_afterDefine (d : Dictionary) (now : Instant) (name other : String)
    (definition : Definition) (open_word : definition.isProtected = false)
    (unprotected : d.protects other = false) :
    (d.afterDefine now name definition).protects other = false := by
  unfold protects
  rw [find?_afterDefine]
  split
  · simp [open_word]
  · exact unprotected

/-! ## Forgetting and uses -/

/-- Forgetting succeeds for an unprotected word and takes away its name. -/
theorem forget_ok_iff {d next : Dictionary} {name : String} {word : Word} :
    d.forget name = .ok (word, next) ↔
      d.find? name = some word ∧ word.isProtected = false ∧
        next = { d with words := d.words.filter fun w => w.name != name } := by
  unfold forget
  cases d.find? name with
  | none => simp
  | some found =>
      by_cases guarded : found.isProtected = true
      · simp only [guarded, ↓reduceIte, reduceCtorEq, Option.some.injEq, false_iff, not_and]
        rintro rfl unguarded
        exact (Bool.false_ne_true (unguarded.symm.trans guarded)).elim
      · simp only [guarded, ↓reduceIte, Bool.false_eq_true, Except.ok.injEq, Prod.mk.injEq,
          Option.some.injEq]
        constructor
        · rintro ⟨rfl, rfl⟩
          exact ⟨rfl, Bool.eq_false_iff.mpr guarded, rfl⟩
        · rintro ⟨rfl, _, rfl⟩
          exact ⟨rfl, rfl⟩

/-- A protected word is not forgotten. -/
theorem forget_of_protects {d : Dictionary} {name : String} (guarded : d.protects name = true) :
    d.forget name = .error (.protectedWord name) := by
  unfold protects at guarded
  unfold forget
  cases found : d.find? name with
  | none => simp [found] at guarded
  | some word =>
      rw [found, Option.any_some] at guarded
      simp only [guarded, ↓reduceIte]

/-- Taking away a name leaves the others in their order. -/
theorem names_filter_ne (d : Dictionary) (name : String) :
    ({ d with words := d.words.filter fun w => w.name != name } : Dictionary).names =
      d.names.filter (· != name) := by
  simp only [names, List.filter_map]
  rfl

/-- Taking away a name leaves the words of the others. -/
theorem find?_filter_ne (d : Dictionary) {name other : String} (apart : other ≠ name) :
    ({ d with words := d.words.filter fun w => w.name != name } : Dictionary).find? other =
      d.find? other := by
  simp only [find?, List.find?_filter]
  congr 1
  funext w
  by_cases named : w.name = other
  · simp [named, apart]
  · simp [named]

/-- A name resolves to the body of its word, and the use is counted. -/
theorem resolve?_eq_some_iff {d next : Dictionary} {name : String} {body : Body} :
    d.resolve? name = some (body, next) ↔
      ∃ word, d.find? name = some word ∧ word.body = body ∧
        next = { d with words := replace d.words name Word.used } := by
  unfold resolve?
  rw [Option.map_eq_some_iff]
  simp only [Prod.mk.injEq, eq_comm (a := next)]

/-- Counting a use keeps the names. -/
theorem names_resolve {d next : Dictionary} {name : String} {body : Body}
    (resolved : d.resolve? name = some (body, next)) : next.names = d.names := by
  obtain ⟨_, _, _, rfl⟩ := resolve?_eq_some_iff.mp resolved
  exact names_replace d.words name Word.used fun _ => rfl

/-- Counting a use changes the word of its name and no other. -/
theorem find?_resolve {d next : Dictionary} {name : String} {body : Body}
    (resolved : d.resolve? name = some (body, next)) (other : String) :
    next.find? other = (d.find? other).map fun w => if w.name == name then w.used else w := by
  obtain ⟨_, _, _, rfl⟩ := resolve?_eq_some_iff.mp resolved
  exact find?_replace d.words name other Word.used fun _ => rfl

/-! ## The limit of histories -/

/-- A definition keeps the limit. -/
theorem define_historyLimit {d next : Dictionary} {now : Instant} {name : String}
    {definition : Definition} (defined : d.define now name definition = .ok next) :
    next.historyLimit = d.historyLimit := by
  obtain ⟨_, _, rfl⟩ := define_ok_iff.mp defined
  exact afterDefine_historyLimit d now name definition

/-- Forgetting keeps the limit. -/
theorem forget_historyLimit {d next : Dictionary} {name : String} {word : Word}
    (forgotten : d.forget name = .ok (word, next)) : next.historyLimit = d.historyLimit := by
  obtain ⟨_, _, rfl⟩ := forget_ok_iff.mp forgotten
  rfl

/-- A use keeps the limit. -/
theorem resolve_historyLimit {d next : Dictionary} {name : String} {body : Body}
    (resolved : d.resolve? name = some (body, next)) : next.historyLimit = d.historyLimit := by
  obtain ⟨_, _, _, rfl⟩ := resolve?_eq_some_iff.mp resolved
  rfl

/-- Several definitions keep the limit. -/
theorem defineAll_historyLimit {d next : Dictionary} {now : Instant} {words : List Word}
    (defined : d.defineAll now words = .ok next) : next.historyLimit = d.historyLimit := by
  induction words generalizing d with
  | nil =>
      cases defined
      rfl
  | cons w rest ih =>
      rw [defineAll] at defined
      split at defined
      · next first => exact (ih defined).trans (define_historyLimit first)
      · cases defined

/-! ## Distinct names -/

/-- The names of a dictionary are distinct, and none is empty. -/
structure WellNamed (d : Dictionary) : Prop where
  distinct : d.names.Nodup
  nonempty : "" ∉ d.names

/-- A definition keeps names distinct and not empty. -/
theorem WellNamed.define {d next : Dictionary} {now : Instant} {name : String}
    {definition : Definition} (named : d.WellNamed)
    (defined : d.define now name definition = .ok next) : next.WellNamed := by
  obtain ⟨nonempty, _, rfl⟩ := define_ok_iff.mp defined
  have names := names_afterDefine d now name definition
  by_cases known : name ∈ d.names
  · rw [if_pos known] at names
    exact ⟨names ▸ named.distinct, names ▸ named.nonempty⟩
  · rw [if_neg known] at names
    refine ⟨names ▸ List.concat_eq_append ▸ named.distinct.concat known, ?_⟩
    rw [names, List.mem_append, List.mem_singleton, not_or]
    exact ⟨named.nonempty, Ne.symm nonempty⟩

/-- So does forgetting. -/
theorem WellNamed.forget {d next : Dictionary} {name : String} {word : Word}
    (named : d.WellNamed) (forgotten : d.forget name = .ok (word, next)) : next.WellNamed := by
  obtain ⟨_, _, rfl⟩ := forget_ok_iff.mp forgotten
  constructor
  · rw [names_filter_ne]
    exact named.distinct.filter _
  · rw [names_filter_ne]
    exact fun member => named.nonempty (List.mem_of_mem_filter member)

/-- So does a use. -/
theorem WellNamed.resolve {d next : Dictionary} {name : String} {body : Body}
    (named : d.WellNamed) (resolved : d.resolve? name = some (body, next)) : next.WellNamed := by
  have names := names_resolve resolved
  exact ⟨names ▸ named.distinct, names ▸ named.nonempty⟩

/-! ## Copies -/

/-- A word that is defined again is the same word. -/
@[simp]
theorem toWord_ofWord (w : Word) (now : Instant) :
    (Definition.ofWord w).toWord w.name now = w := by
  cases w
  rfl

/-- Defining words with new and distinct names again puts them last, as they are. -/
theorem defineAll_of_fresh (d : Dictionary) (now : Instant) (words : List Word)
    (distinct : (d.names ++ words.map Word.name).Nodup) (nonempty : "" ∉ words.map Word.name) :
    d.defineAll now words = .ok { d with words := d.words ++ words } := by
  induction words generalizing d with
  | nil => simp [defineAll]
  | cons w rest ih =>
      rw [List.map_cons, List.mem_cons, not_or] at nonempty
      have fresh : d.find? w.name = none := by
        rw [find?_eq_none_iff]
        intro known
        exact (List.disjoint_of_nodup_append distinct) known List.mem_cons_self
      have defined : d.define now w.name (.ofWord w) =
          .ok { d with words := d.words ++ [w] } := by
        rw [define, if_neg (Ne.symm nonempty.1), fresh, toWord_ofWord]
      have later := ih { d with words := d.words ++ [w] } (by simpa [names] using distinct)
        nonempty.2
      simp only [defineAll, defined, later, List.append_assoc, List.singleton_append]

/-- A copy of a dictionary with distinct names is that dictionary. -/
theorem WellNamed.duplicate_eq {d : Dictionary} (named : d.WellNamed) (now : Instant) :
    d.duplicate now = .ok d :=
  defineAll_of_fresh (empty d.historyLimit) now d.words named.distinct named.nonempty

/-! ## Several definitions in a row -/

/-- The dictionary after definitions that are all allowed. -/
def afterDefines (d : Dictionary) (now : Instant) (definitions : List (String × Definition)) :
    Dictionary :=
  definitions.foldl (fun d p => d.afterDefine now p.1 p.2) d

@[simp]
theorem afterDefines_nil (d : Dictionary) (now : Instant) : d.afterDefines now [] = d := rfl

@[simp]
theorem afterDefines_cons (d : Dictionary) (now : Instant) (p : String × Definition)
    (rest : List (String × Definition)) :
    d.afterDefines now (p :: rest) = (d.afterDefine now p.1 p.2).afterDefines now rest := rfl

theorem afterDefines_append (d : Dictionary) (now : Instant)
    (first rest : List (String × Definition)) :
    d.afterDefines now (first ++ rest) = (d.afterDefines now first).afterDefines now rest :=
  List.foldl_append

/-- Definitions in a row keep the limit. -/
@[simp]
theorem afterDefines_historyLimit (d : Dictionary) (now : Instant)
    (definitions : List (String × Definition)) :
    (d.afterDefines now definitions).historyLimit = d.historyLimit := by
  induction definitions generalizing d with
  | nil => rfl
  | cons p rest ih => rw [afterDefines_cons, ih, afterDefine_historyLimit]

/-- Names that are not defined keep their words. -/
theorem find?_afterDefines_of_notMem (d : Dictionary) (now : Instant)
    (definitions : List (String × Definition)) (name : String)
    (absent : name ∉ definitions.map Prod.fst) :
    (d.afterDefines now definitions).find? name = d.find? name := by
  induction definitions generalizing d with
  | nil => rfl
  | cons p rest ih =>
      rw [List.map_cons, List.mem_cons, not_or] at absent
      rw [afterDefines_cons, ih _ absent.2, find?_afterDefine, if_neg absent.1]

/-- A name that is defined once holds the word of that definition. -/
theorem find?_afterDefines_of_count_eq_one (d : Dictionary) (now : Instant)
    (definitions : List (String × Definition)) (p : String × Definition)
    (member : p ∈ definitions) (once : (definitions.map Prod.fst).count p.1 = 1) :
    (d.afterDefines now definitions).find? p.1 = some (d.wordDefined now p.1 p.2) := by
  obtain ⟨first, rest, rfl⟩ := List.append_of_mem member
  rw [List.map_append, List.map_cons, List.count_append, List.count_cons_self] at once
  have absent_first : p.1 ∉ first.map Prod.fst := List.count_eq_zero.mp (by omega)
  have absent_rest : p.1 ∉ rest.map Prod.fst := List.count_eq_zero.mp (by omega)
  have before := find?_afterDefines_of_notMem d now first p.1 absent_first
  rw [afterDefines_append, afterDefines_cons, find?_afterDefines_of_notMem _ _ _ _ absent_rest,
    find?_afterDefine, if_pos rfl]
  simp only [wordDefined, before, afterDefines_historyLimit]

/-- New names follow the known ones in the order in which they appear first. -/
theorem names_afterDefines (d : Dictionary) (now : Instant)
    (definitions : List (String × Definition)) :
    (d.afterDefines now definitions).names =
      d.names ++ ((definitions.map Prod.fst).filter (· ∉ d.names)).eraseDups := by
  induction definitions generalizing d with
  | nil => simp
  | cons p rest ih =>
      rw [afterDefines_cons, ih, names_afterDefine, List.map_cons]
      by_cases known : p.1 ∈ d.names
      · simp [known]
      · rw [if_neg known, List.filter_cons_of_pos (by simpa using known), List.eraseDups_cons,
          List.filter_filter, List.append_assoc, List.singleton_append]
        congr 3
        apply List.filter_congr
        intro name _
        by_cases same : name = p.1 <;> simp [same]

/-- Definitions of distinct new names put their words last, in order. -/
theorem words_afterDefines_of_fresh (d : Dictionary) (now : Instant)
    (definitions : List (String × Definition)) (distinct : (definitions.map Prod.fst).Nodup)
    (fresh : ∀ p ∈ definitions, p.1 ∉ d.names) :
    (d.afterDefines now definitions).words =
      d.words ++ definitions.map fun p => p.2.toWord p.1 now := by
  induction definitions generalizing d with
  | nil => simp
  | cons p rest ih =>
      rw [List.map_cons, List.nodup_cons] at distinct
      rw [List.forall_mem_cons] at fresh
      have defined : d.afterDefine now p.1 p.2 =
          { d with words := d.words ++ [p.2.toWord p.1 now] } := by
        rw [afterDefine, find?_eq_none_iff.mpr fresh.1]
      rw [afterDefines_cons, ih _ distinct.2, defined, List.map_cons, List.append_assoc,
        List.singleton_append]
      intro q member
      rw [names_afterDefine, if_neg fresh.1, List.mem_append, List.mem_singleton, not_or]
      refine ⟨fresh.2 q member, fun same => distinct.1 ?_⟩
      rw [← same]
      exact List.mem_map_of_mem member

end Dictionary

end WordMachine
