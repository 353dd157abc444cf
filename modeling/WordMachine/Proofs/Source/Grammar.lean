import Mathlib.Data.List.TakeWhile
import WordMachine.Proofs.Source.Program
import WordMachine.Proofs.Source.Scan

/-! # The grammar of a source

The grammar says which tokens an item takes, without reading them one by one: each of its
relations has the tokens ahead on the left and what is left of them on the right. Tokens
whose lines never decrease start exactly one item or have exactly one fault, so they
decompose in one way, and the items of a source are those of the grammar.
-/

namespace WordMachine

namespace Source

/-! ## Rules -/

/-- A token that has no meaning of its own in a source. -/
structure Plain (token : SourceToken) : Prop where
  colon : token.text ≠ ":"
  semicolon : token.text ≠ ";"
  opening : token.text ≠ "("
  backslash : token.text ≠ "\\"

/-- A token that ends in a closing parenthesis. -/
def Closes (token : SourceToken) : Prop :=
  ∃ stem, token.text = stem ++ ")"

/-- An opening parenthesis and all that follows up to the first token that closes. -/
inductive IsGroup : List SourceToken → Prop where
  | group {opening closing : SourceToken} {inner : List SourceToken} : opening.text = "(" →
      (∀ token ∈ inner, ¬Closes token) → Closes closing →
      IsGroup (opening :: (inner ++ [closing]))

/-- A comment: a backslash with all tokens that follow on its line, or a group. -/
inductive CommentTo : List SourceToken → List SourceToken → Prop where
  | line {backslash : SourceToken} {taken rest : List SourceToken} : backslash.text = "\\" →
      (∀ token ∈ taken, token.line = backslash.line) →
      (∀ token ∈ rest, token.line ≠ backslash.line) → CommentTo (backslash :: (taken ++ rest)) rest
  | group {group rest : List SourceToken} : IsGroup group → CommentTo (group ++ rest) rest

/-- The effect of a definition: the group directly after its name, if there is one. -/
inductive EffectTo : List SourceToken → Option String → List SourceToken → Prop where
  | absent {tokens : List SourceToken} : (∀ token ∈ tokens.head?, token.text ≠ "(") →
      EffectTo tokens none tokens
  | group {group rest : List SourceToken} : IsGroup group →
      EffectTo (group ++ rest) (some (" ".intercalate (group.map SourceToken.text))) rest

/-- The body of a definition: plain tokens and comments up to a semicolon. -/
inductive BodyTo : List SourceToken → List String → List SourceToken → Prop where
  | done {semicolon : SourceToken} {rest : List SourceToken} : semicolon.text = ";" →
      BodyTo (semicolon :: rest) [] rest
  | token {token : SourceToken} {tokens rest : List SourceToken} {body : List String} :
      Plain token → BodyTo tokens body rest → BodyTo (token :: tokens) (token.text :: body) rest
  | comment {tokens after rest : List SourceToken} {body : List String} :
      CommentTo tokens after → BodyTo after body rest → BodyTo tokens body rest

/-- An item: a comment, a definition, a forget or a token to dispatch. -/
inductive ItemTo : List SourceToken → Item → List SourceToken → Prop where
  | comment {tokens rest : List SourceToken} : CommentTo tokens rest →
      ItemTo tokens .comment rest
  | definition {colon name : SourceToken} {tokens after rest : List SourceToken}
      {effect : Option String} {body : List String} : colon.text = ":" → Plain name →
      EffectTo tokens effect after → BodyTo after body rest →
      ItemTo (colon :: name :: tokens) (.definition name effect body) rest
  | forget {keyword name : SourceToken} {rest : List SourceToken} : keyword.text = "FORGET" →
      ItemTo (keyword :: name :: rest) (.forget name) rest
  | dispatch {token : SourceToken} {rest : List SourceToken} : Plain token →
      token.text ≠ "FORGET" → ItemTo (token :: rest) (.dispatch token) rest

/-- Items one after the other. -/
inductive ItemsTo : List SourceToken → List Item → List SourceToken → Prop where
  | none (tokens : List SourceToken) : ItemsTo tokens [] tokens
  | item {tokens after rest : List SourceToken} {item : Item} {items : List Item} :
      ItemTo tokens item after → ItemsTo after items rest → ItemsTo tokens (item :: items) rest

/-! ## Faults -/

/-- Tokens that no body of a definition of `name` begins, and what is to blame. -/
inductive BodyFault (name : SourceToken) : List SourceToken → Blame → Prop where
  | ended : BodyFault name [] ⟨.unterminatedDefinition name.text, name⟩
  | nested {colon : SourceToken} {rest : List SourceToken} : colon.text = ":" →
      BodyFault name (colon :: rest) ⟨.nestedDefinition, colon⟩
  | unclosed {opening : SourceToken} {rest : List SourceToken} : opening.text = "(" →
      (∀ token ∈ rest, ¬Closes token) →
      BodyFault name (opening :: rest) ⟨.unterminatedComment, opening⟩
  | token {token : SourceToken} {tokens : List SourceToken} {blame : Blame} : Plain token →
      BodyFault name tokens blame → BodyFault name (token :: tokens) blame
  | comment {tokens after : List SourceToken} {blame : Blame} : CommentTo tokens after →
      BodyFault name after blame → BodyFault name tokens blame

/-- Tokens that no item begins, and what is to blame. -/
inductive ItemFault : List SourceToken → Blame → Prop where
  | strayEnd {semicolon : SourceToken} {rest : List SourceToken} : semicolon.text = ";" →
      ItemFault (semicolon :: rest) ⟨.strayEnd, semicolon⟩
  | unclosed {opening : SourceToken} {rest : List SourceToken} : opening.text = "(" →
      (∀ token ∈ rest, ¬Closes token) →
      ItemFault (opening :: rest) ⟨.unterminatedComment, opening⟩
  | nothingForgotten {keyword : SourceToken} : keyword.text = "FORGET" →
      ItemFault [keyword] ⟨.expectedForgottenName, keyword⟩
  | nothingDefined {colon : SourceToken} : colon.text = ":" →
      ItemFault [colon] ⟨.expectedName, colon⟩
  | misnamed {colon name : SourceToken} {rest : List SourceToken} : colon.text = ":" →
      ¬Plain name → ItemFault (colon :: name :: rest) ⟨.expectedName, name⟩
  | unclosedEffect {colon name opening : SourceToken} {rest : List SourceToken} :
      colon.text = ":" → Plain name → opening.text = "(" → (∀ token ∈ rest, ¬Closes token) →
      ItemFault (colon :: name :: opening :: rest) ⟨.unterminatedComment, opening⟩
  | body {colon name : SourceToken} {tokens after : List SourceToken} {effect : Option String}
      {blame : Blame} : colon.text = ":" → Plain name → EffectTo tokens effect after →
      BodyFault name after blame → ItemFault (colon :: name :: tokens) blame

/-- Tokens as a whole: items as long as some item begins, and the fault of what is left, unless
nothing is. -/
structure Decomposes (tokens : List SourceToken) (p : Program) (left : List SourceToken) :
    Prop where
  items : ItemsTo tokens p.items left
  noItem : ∀ item rest, ¬ItemTo left item rest
  fault : match p.blame with
    | none => left = []
    | some blame => ItemFault left blame

/-! ## Every list of tokens has an item or a fault -/

/-- Tokens in the order of their lines. -/
def LinesOrdered (tokens : List SourceToken) : Prop :=
  tokens.Pairwise fun a b => a.line ≤ b.line

theorem LinesOrdered.of_suffix {tokens rest : List SourceToken} (ordered : LinesOrdered tokens)
    (suffix : rest <:+ tokens) : LinesOrdered rest :=
  List.Pairwise.sublist suffix.sublist ordered

/-- What is left once at least one token was taken. -/
inductive LeftOf : List SourceToken → List SourceToken → Prop where
  | taken {first : SourceToken} {tokens rest : List SourceToken} : rest <:+ tokens →
      LeftOf (first :: tokens) rest

namespace LeftOf

variable {tokens rest : List SourceToken}

/-- What is left ends the tokens. -/
theorem suffix (left : LeftOf tokens rest) : rest <:+ tokens := by
  obtain ⟨suffix⟩ := left
  exact suffix.trans (List.suffix_cons _ _)

/-- Something is taken. -/
theorem length_lt (left : LeftOf tokens rest) : rest.length < tokens.length := by
  obtain ⟨suffix⟩ := left
  exact Nat.lt_succ_of_le suffix.length_le

/-- Less may be left. -/
theorem trans_suffix {after : List SourceToken} (left : LeftOf tokens rest)
    (suffix : after <:+ rest) : LeftOf tokens after := by
  obtain ⟨before⟩ := left
  exact .taken (suffix.trans before)

end LeftOf

/-- A comment takes a token at least. -/
theorem CommentTo.leftOf {tokens rest : List SourceToken} (comment : CommentTo tokens rest) :
    LeftOf tokens rest := by
  cases comment with
  | line => exact .taken (List.suffix_append _ _)
  | group group =>
      cases group
      exact .taken (List.suffix_append _ _)

/-- After an effect, or none, an end of the tokens is left. -/
theorem EffectTo.suffix {tokens rest : List SourceToken} {effect : Option String}
    (read : EffectTo tokens effect rest) : rest <:+ tokens := by
  cases read with
  | absent => exact List.suffix_rfl
  | group => exact List.suffix_append _ _

/-- A body takes its semicolon at least. -/
theorem BodyTo.leftOf {tokens rest : List SourceToken} {body : List String}
    (read : BodyTo tokens body rest) : LeftOf tokens rest := by
  induction read with
  | done => exact .taken List.suffix_rfl
  | token _ _ ih => exact .taken ih.suffix
  | comment comment _ ih => exact comment.leftOf.trans_suffix ih.suffix

/-- Every item takes a token at least. -/
theorem ItemTo.leftOf {tokens rest : List SourceToken} {item : Item}
    (read : ItemTo tokens item rest) : LeftOf tokens rest := by
  cases read with
  | comment comment => exact comment.leftOf
  | definition _ _ effect body =>
      exact .taken ((body.leftOf.suffix.trans effect.suffix).trans (List.suffix_cons _ _))
  | forget => exact .taken (List.suffix_cons _ _)
  | dispatch => exact .taken List.suffix_rfl

/-- A token is plain or one of the four marks of the grammar. -/
theorem plain_or (token : SourceToken) :
    Plain token ∨ token.text = ":" ∨ token.text = ";" ∨ token.text = "(" ∨ token.text = "\\" := by
  by_cases colon : token.text = ":"
  · exact .inr (.inl colon)
  · by_cases semicolon : token.text = ";"
    · exact .inr (.inr (.inl semicolon))
    · by_cases opening : token.text = "("
      · exact .inr (.inr (.inr (.inl opening)))
      · by_cases backslash : token.text = "\\"
        · exact .inr (.inr (.inr (.inr backslash)))
        · exact .inl ⟨colon, semicolon, opening, backslash⟩

theorem endsComment_iff (token : SourceToken) : endsComment token = true ↔ Closes token := by
  unfold endsComment Closes
  rw [beq_iff_eq, List.getLast?_eq_some_iff]
  constructor
  · rintro ⟨stem, spelled⟩
    refine ⟨String.ofList stem, String.toList_inj.mp ?_⟩
    rw [spelled, String.toList_append, String.toList_ofList]
    rfl
  · rintro ⟨stem, spelled⟩
    exact ⟨stem.toList, by rw [spelled, String.toList_append]; rfl⟩

/-- After an opening parenthesis, either some token closes or none does. -/
theorem group_or_unclosed {opening : SourceToken} (opens : opening.text = "(")
    (tokens : List SourceToken) :
    (∃ group rest, IsGroup group ∧ opening :: tokens = group ++ rest) ∨
      ∀ token ∈ tokens, ¬Closes token := by
  by_cases closed : ∃ token ∈ tokens, Closes token
  · obtain ⟨token, member, closes⟩ := closed
    obtain ⟨closing, inner, rest, unclosed, closes, rfl, _⟩ :=
      List.exists_of_eraseP member ((endsComment_iff token).mpr closes)
    refine .inl ⟨opening :: (inner ++ [closing]), rest, .group opens ?_ ?_, by simp⟩
    · intro token member closes
      exact unclosed token member ((endsComment_iff token).mpr closes)
    · exact (endsComment_iff closing).mp closes
  · exact .inr fun token member closes => closed ⟨token, member, closes⟩

/-- Past its line, tokens in order are on later lines. -/
theorem line_ne_of_mem_afterLine {line : Nat} {tokens : List SourceToken}
    (ordered : LinesOrdered tokens) (later : ∀ token ∈ tokens, line ≤ token.line) :
    ∀ token ∈ afterLine line tokens, token.line ≠ line := by
  induction tokens with
  | nil => exact fun _ member => nomatch member
  | cons first rest ih =>
      obtain ⟨first_later, rest_later⟩ := List.forall_mem_cons.mp later
      obtain ⟨first_le, rest_ordered⟩ := List.pairwise_cons.mp ordered
      unfold afterLine at ih ⊢
      by_cases here : first.line = line
      · rw [List.dropWhile_cons_of_pos (by simpa using here)]
        exact ih rest_ordered rest_later
      · rw [List.dropWhile_cons_of_neg (by simpa using here)]
        intro token member
        rcases List.mem_cons.mp member with rfl | member
        · exact here
        · have := first_le token member
          omega

/-- A backslash starts a comment that ends with its line. -/
theorem exists_commentTo_of_backslash {backslash : SourceToken} {tokens : List SourceToken}
    (ordered : LinesOrdered (backslash :: tokens)) (text : backslash.text = "\\") :
    ∃ rest, CommentTo (backslash :: tokens) rest := by
  obtain ⟨later, rest_ordered⟩ := List.pairwise_cons.mp ordered
  have split : tokens.takeWhile (fun token => token.line == backslash.line) ++
      afterLine backslash.line tokens = tokens := List.takeWhile_append_dropWhile
  have here : ∀ token ∈ tokens.takeWhile (fun token => token.line == backslash.line),
      token.line = backslash.line := fun token member => by
    simpa using List.mem_takeWhile_imp member
  have comment := CommentTo.line text here (line_ne_of_mem_afterLine rest_ordered later)
  rw [split] at comment
  exact ⟨_, comment⟩

/-- A body either ends or has a fault, by induction on how many tokens there are. -/
theorem bodyTo_or_bodyFault (name : SourceToken) {tokens : List SourceToken}
    (ordered : LinesOrdered tokens) :
    (∃ body rest, BodyTo tokens body rest) ∨ ∃ blame, BodyFault name tokens blame := by
  induction size : tokens.length using Nat.strongRecOn generalizing tokens with
  | ind size ih =>
  subst size
  -- Both kinds of comment go on with what they leave, so they share one step.
  have after_comment : ∀ {rest}, CommentTo tokens rest →
      (∃ body rest, BodyTo tokens body rest) ∨ ∃ blame, BodyFault name tokens blame := by
    intro rest comment
    have left := comment.leftOf
    refine (ih rest.length left.length_lt (ordered.of_suffix left.suffix) rfl).imp ?_ ?_
    · rintro ⟨body, left, read⟩
      exact ⟨body, left, .comment comment read⟩
    · rintro ⟨blame, fault⟩
      exact ⟨blame, .comment comment fault⟩
  cases tokens with
  | nil => exact .inr ⟨_, .ended⟩
  | cons token rest =>
      rcases plain_or token with plain | colon | semicolon | opening | backslash
      · refine (ih rest.length (by simp) ordered.of_cons rfl).imp ?_ ?_
        · rintro ⟨body, left, read⟩
          exact ⟨_, left, .token plain read⟩
        · rintro ⟨blame, fault⟩
          exact ⟨blame, .token plain fault⟩
      · exact .inr ⟨_, .nested colon⟩
      · exact .inl ⟨_, _, .done semicolon⟩
      · rcases group_or_unclosed opening rest with ⟨group, left, isGroup, split⟩ | unclosed
        · rw [split] at after_comment ⊢
          exact after_comment (.group isGroup)
        · exact .inr ⟨_, .unclosed opening unclosed⟩
      · obtain ⟨left, comment⟩ := exists_commentTo_of_backslash ordered backslash
        exact after_comment comment

/-- An effect is read unless its group is never closed. -/
theorem effectTo_or_unclosed (tokens : List SourceToken) :
    (∃ effect after, EffectTo tokens effect after) ∨
      ∃ opening rest, tokens = opening :: rest ∧ opening.text = "(" ∧
        ∀ token ∈ rest, ¬Closes token := by
  cases tokens with
  | nil => exact .inl ⟨none, [], .absent fun _ member => nomatch member⟩
  | cons token rest =>
      by_cases opening : token.text = "("
      · rcases group_or_unclosed opening rest with ⟨group, after, isGroup, split⟩ | unclosed
        · rw [split]
          exact .inl ⟨_, after, .group isGroup⟩
        · exact .inr ⟨token, rest, rfl, opening, unclosed⟩
      · refine .inl ⟨none, _, .absent fun first member => ?_⟩
        cases Option.some.inj member
        exact opening

/-- A colon starts a definition or a fault. -/
theorem definitionTo_or_itemFault {colon : SourceToken} {tokens : List SourceToken}
    (text : colon.text = ":") (ordered : LinesOrdered (colon :: tokens)) :
    (∃ item left, ItemTo (colon :: tokens) item left) ∨
      ∃ blame, ItemFault (colon :: tokens) blame := by
  cases tokens with
  | nil => exact .inr ⟨_, .nothingDefined text⟩
  | cons name tokens =>
      by_cases plain : Plain name
      · rcases effectTo_or_unclosed tokens with ⟨effect, after, read⟩ | ⟨_, _, rfl, opening, unclosed⟩
        · have after_ordered : LinesOrdered after :=
            ordered.of_cons.of_cons.sublist read.suffix.sublist
          refine (bodyTo_or_bodyFault name after_ordered).imp ?_ ?_
          · rintro ⟨body, left, ended⟩
            exact ⟨_, left, .definition text plain read ended⟩
          · rintro ⟨blame, fault⟩
            exact ⟨blame, .body text plain read fault⟩
        · exact .inr ⟨_, .unclosedEffect text plain opening unclosed⟩
      · exact .inr ⟨_, .misnamed text plain⟩

/-- Tokens in the order of their lines begin an item or have a fault. -/
theorem itemTo_or_itemFault {token : SourceToken} {tokens : List SourceToken}
    (ordered : LinesOrdered (token :: tokens)) :
    (∃ item left, ItemTo (token :: tokens) item left) ∨
      ∃ blame, ItemFault (token :: tokens) blame := by
  rcases plain_or token with plain | colon | semicolon | opening | backslash
  · by_cases keyword : token.text = "FORGET"
    · cases tokens with
      | nil => exact .inr ⟨_, .nothingForgotten keyword⟩
      | cons name rest => exact .inl ⟨_, rest, .forget keyword⟩
    · exact .inl ⟨_, tokens, .dispatch plain keyword⟩
  · exact definitionTo_or_itemFault colon ordered
  · exact .inr ⟨_, .strayEnd semicolon⟩
  · rcases group_or_unclosed opening tokens with ⟨group, left, isGroup, split⟩ | unclosed
    · rw [split]
      exact .inl ⟨_, left, .comment (.group isGroup)⟩
    · exact .inr ⟨_, .unclosed opening unclosed⟩
  · obtain ⟨left, comment⟩ := exists_commentTo_of_backslash ordered backslash
    exact .inl ⟨_, left, .comment comment⟩

/-! ## The items that are taken are those of the grammar -/

/-- A group is taken up to the first token that closes it. -/
theorem takeComment?_of_closed {inner rest : List SourceToken} {closing : SourceToken}
    (unclosed : ∀ token ∈ inner, ¬Closes token) (closes : Closes closing) :
    takeComment? (inner ++ closing :: rest) =
      some ((inner ++ [closing]).map SourceToken.text, rest) := by
  induction inner with
  | nil => simp [takeComment?, (endsComment_iff closing).mpr closes]
  | cons token inner ih =>
      obtain ⟨open_first, open_rest⟩ := List.forall_mem_cons.mp unclosed
      have inside : ¬endsComment token = true := (endsComment_iff token).not.mpr open_first
      rw [List.cons_append, takeComment?, if_neg inside, ih open_rest]
      rfl

/-- Without such a token no group is taken. -/
theorem takeComment?_of_unclosed {tokens : List SourceToken}
    (unclosed : ∀ token ∈ tokens, ¬Closes token) : takeComment? tokens = none := by
  induction tokens with
  | nil => rfl
  | cons token rest ih =>
      obtain ⟨open_first, open_rest⟩ := List.forall_mem_cons.mp unclosed
      have inside : ¬endsComment token = true := (endsComment_iff token).not.mpr open_first
      rw [takeComment?, if_neg inside, ih open_rest]
      rfl

theorem skipComment_of_group {opening closing : SourceToken} {inner rest : List SourceToken}
    (unclosed : ∀ token ∈ inner, ¬Closes token) (closes : Closes closing) :
    skipComment opening (inner ++ closing :: rest) =
      .ok ((opening :: (inner ++ [closing])).map SourceToken.text, rest) := by
  rw [skipComment, takeComment?_of_closed unclosed closes]
  rfl

/-- A group that is never closed is blamed on its opening. -/
theorem skipComment_of_unclosed (opening : SourceToken) {tokens : List SourceToken}
    (unclosed : ∀ token ∈ tokens, ¬Closes token) :
    skipComment opening tokens = .error ⟨.unterminatedComment, opening⟩ := by
  rw [skipComment, takeComment?_of_unclosed unclosed]

/-- The tokens of a line are passed over. -/
theorem afterLine_append {line : Nat} {taken rest : List SourceToken}
    (here : ∀ token ∈ taken, token.line = line) (elsewhere : ∀ token ∈ rest, token.line ≠ line) :
    afterLine line (taken ++ rest) = rest := by
  unfold afterLine
  rw [List.dropWhile_append_of_pos (by simpa using here)]
  cases rest with
  | nil => rfl
  | cons token rest =>
      have away := elsewhere token List.mem_cons_self
      rw [List.dropWhile_cons_of_neg (by simpa using away)]

/-- A comment adds nothing to a body. -/
theorem takeBody_of_comment {name : SourceToken} {tokens after : List SourceToken}
    (comment : CommentTo tokens after) (steps : Nat) :
    takeBody name (steps + 1) tokens = takeBody name steps after := by
  cases comment with
  | line text here elsewhere => simp [takeBody, text, afterLine_append here elsewhere]
  | group group =>
      obtain ⟨text, unclosed, closes⟩ := group
      simp [takeBody, text, skipComment_of_group unclosed closes, bind, Except.bind]

/-- A plain token is added to the body. -/
theorem takeBody_of_plain {name token : SourceToken} (plain : Plain token) (steps : Nat)
    (tokens : List SourceToken) :
    takeBody name (steps + 1) (token :: tokens) =
      (takeBody name steps tokens).map fun (body, after) => (token.text :: body, after) := by
  simp only [takeBody, plain.colon, plain.semicolon, plain.opening, plain.backslash, if_false]
  cases takeBody name steps tokens <;> rfl

/-- The body of the grammar is taken, by induction on the grammar. Every rule takes a token, so
the steps suffice. -/
theorem takeBody_of_bodyTo {name : SourceToken} {tokens rest : List SourceToken}
    {body : List String} (read : BodyTo tokens body rest) {steps : Nat}
    (enough : tokens.length < steps) : takeBody name steps tokens = .ok (body, rest) := by
  induction read generalizing steps with
  | done text =>
      obtain ⟨steps, rfl⟩ := Nat.exists_eq_add_of_lt enough
      simp [takeBody, text]
  | token plain _ ih =>
      obtain ⟨steps, rfl⟩ := Nat.exists_eq_add_of_lt enough
      rw [takeBody_of_plain plain, ih (by simp; omega)]
      rfl
  | comment comment _ ih =>
      obtain ⟨steps, rfl⟩ := Nat.exists_eq_add_of_lt enough
      rw [takeBody_of_comment comment, ih (by have := comment.leftOf.length_lt; omega)]

/-- A faulty body is blamed as the grammar says. -/
theorem takeBody_of_bodyFault {name : SourceToken} {tokens : List SourceToken} {blame : Blame}
    (fault : BodyFault name tokens blame) {steps : Nat} (enough : tokens.length < steps) :
    takeBody name steps tokens = .error blame := by
  induction fault generalizing steps with
  | ended =>
      obtain ⟨steps, rfl⟩ := Nat.exists_eq_add_of_lt enough
      rfl
  | nested text =>
      obtain ⟨steps, rfl⟩ := Nat.exists_eq_add_of_lt enough
      simp [takeBody, text]
  | unclosed text unclosed =>
      obtain ⟨steps, rfl⟩ := Nat.exists_eq_add_of_lt enough
      simp [takeBody, text, skipComment_of_unclosed _ unclosed, bind, Except.bind]
  | token plain _ ih =>
      obtain ⟨steps, rfl⟩ := Nat.exists_eq_add_of_lt enough
      rw [takeBody_of_plain plain, ih (by simp; omega)]
      rfl
  | comment comment _ ih =>
      obtain ⟨steps, rfl⟩ := Nat.exists_eq_add_of_lt enough
      rw [takeBody_of_comment comment, ih (by have := comment.leftOf.length_lt; omega)]

/-- An effect is taken as the grammar says. -/
theorem takeEffect_of_effectTo {tokens after : List SourceToken} {effect : Option String}
    (read : EffectTo tokens effect after) : takeEffect tokens = .ok (effect, after) := by
  cases read with
  | absent absent =>
      cases tokens with
      | nil => rfl
      | cons token rest =>
          have other : token.text ≠ "(" := absent token rfl
          rw [takeEffect, if_neg other]
  | group group =>
      obtain ⟨text, unclosed, closes⟩ := group
      simp [takeEffect, text, skipComment_of_group unclosed closes, bind, Except.bind, pure,
        Except.pure]

/-- The reserved texts are those of tokens that are not plain. -/
theorem isReserved_eq_true_iff (token : SourceToken) :
    isReserved token.text = true ↔ ¬Plain token := by
  constructor
  · intro reserved plain
    simp [isReserved, plain.colon, plain.semicolon, plain.opening, plain.backslash] at reserved
  · intro special
    rcases (plain_or token).resolve_left special with text | text | text | text <;>
      simp [isReserved, text]

theorem takeDefinition_of_plain {name : SourceToken} (plain : Plain name) (colon : SourceToken)
    (tokens : List SourceToken) :
    takeDefinition colon (name :: tokens) = do
      let (effect, rest) ← takeEffect tokens
      let (body, rest) ← takeBody name (rest.length + 1) rest
      return (.definition name effect body, rest) := by
  have free : ¬isReserved name.text = true := by
    rw [isReserved_eq_true_iff]
    exact not_not_intro plain
  rw [takeDefinition, if_neg free]

/-- The item of the grammar is taken. -/
theorem takeItem_of_itemTo {tokens rest : List SourceToken} {item : Item}
    (read : ItemTo tokens item rest) :
    ∃ first tail, tokens = first :: tail ∧ takeItem first tail = .ok (item, rest) := by
  cases read with
  | comment comment =>
      cases comment with
      | line text here elsewhere =>
          exact ⟨_, _, rfl, by simp [takeItem, text, afterLine_append here elsewhere]⟩
      | group group =>
          obtain ⟨text, unclosed, closes⟩ := group
          refine ⟨_, _, rfl, ?_⟩
          simp [takeItem, text, skipComment_of_group unclosed closes, bind, Except.bind, pure,
            Except.pure]
  | definition text plain effect body =>
      refine ⟨_, _, rfl, ?_⟩
      simp [takeItem, text, takeDefinition_of_plain plain, takeEffect_of_effectTo effect,
        takeBody_of_bodyTo body (Nat.lt_succ_self _), bind, Except.bind, pure, Except.pure]
  | forget text => exact ⟨_, _, rfl, by simp [takeItem, text]⟩
  | dispatch plain other =>
      refine ⟨_, _, rfl, ?_⟩
      simp [takeItem, plain.colon, plain.semicolon, plain.opening, plain.backslash, other]

/-- The fault of the grammar is found. -/
theorem takeItem_of_itemFault {tokens : List SourceToken} {blame : Blame}
    (fault : ItemFault tokens blame) :
    ∃ first tail, tokens = first :: tail ∧ takeItem first tail = .error blame := by
  cases fault with
  | strayEnd text => exact ⟨_, _, rfl, by simp [takeItem, text]⟩
  | unclosed text unclosed =>
      refine ⟨_, _, rfl, ?_⟩
      simp [takeItem, text, skipComment_of_unclosed _ unclosed, bind, Except.bind]
  | nothingForgotten text => exact ⟨_, _, rfl, by simp [takeItem, text]⟩
  | nothingDefined text => exact ⟨_, _, rfl, by simp [takeItem, text, takeDefinition]⟩
  | misnamed text special =>
      refine ⟨_, _, rfl, ?_⟩
      simp [takeItem, text, takeDefinition, (isReserved_eq_true_iff _).mpr special]
  | unclosedEffect text plain opening unclosed =>
      refine ⟨_, _, rfl, ?_⟩
      simp [takeItem, text, takeDefinition_of_plain plain, takeEffect, opening,
        skipComment_of_unclosed _ unclosed, bind, Except.bind]
  | body text plain effect fault =>
      refine ⟨_, _, rfl, ?_⟩
      simp [takeItem, text, takeDefinition_of_plain plain, takeEffect_of_effectTo effect,
        takeBody_of_bodyFault fault (Nat.lt_succ_self _), bind, Except.bind]

/-- Tokens begin at most one item. -/
theorem ItemTo.unique {tokens rest rest' : List SourceToken} {item item' : Item}
    (read : ItemTo tokens item rest) (read' : ItemTo tokens item' rest') :
    item' = item ∧ rest' = rest := by
  obtain ⟨first, tail, rfl, taken⟩ := takeItem_of_itemTo read
  obtain ⟨_, _, ⟨⟩, taken'⟩ := takeItem_of_itemTo read'
  cases taken.symm.trans taken'
  exact ⟨rfl, rfl⟩

/-- Tokens with a fault begin no item. -/
theorem ItemFault.not_itemTo {tokens : List SourceToken} {blame : Blame}
    (fault : ItemFault tokens blame) (item : Item) (rest : List SourceToken) :
    ¬ItemTo tokens item rest := by
  intro read
  obtain ⟨first, tail, rfl, failed⟩ := takeItem_of_itemFault fault
  obtain ⟨_, _, ⟨⟩, taken⟩ := takeItem_of_itemTo read
  cases failed.symm.trans taken

/-! ## Decompositions -/

/-- The same items leave the same tokens. -/
theorem ItemsTo.left_unique {tokens left left' : List SourceToken} {items : List Item}
    (read : ItemsTo tokens items left) (read' : ItemsTo tokens items left') : left' = left := by
  induction read with
  | none =>
      cases read'
      rfl
  | item first _ ih =>
      cases read' with
      | item first' rest' =>
          obtain ⟨-, rfl⟩ := first.unique first'
          exact ih rest'

/-- An item in front of a decomposition makes a longer one. -/
theorem Decomposes.cons {tokens after left : List SourceToken} {item : Item} {p : Program}
    (first : ItemTo tokens item after) (rest : Decomposes after p left) :
    Decomposes tokens { p with items := item :: p.items } left :=
  ⟨.item first rest.items, rest.noItem, rest.fault⟩

/-- Tokens in the order of their lines decompose, by induction on how many there are. -/
theorem exists_decomposes {tokens : List SourceToken} (ordered : LinesOrdered tokens) :
    ∃ p left, Decomposes tokens p left := by
  induction size : tokens.length using Nat.strongRecOn generalizing tokens with
  | ind size ih =>
  subst size
  cases tokens with
  | nil =>
      refine ⟨⟨[], none⟩, [], .none [], fun item rest read => ?_, rfl⟩
      cases read.leftOf
  | cons token tokens =>
      rcases itemTo_or_itemFault ordered with ⟨item, after, first⟩ | ⟨blame, fault⟩
      · have left := first.leftOf
        obtain ⟨p, last, rest⟩ :=
          ih after.length left.length_lt (ordered.of_suffix left.suffix) rfl
        exact ⟨_, last, .cons first rest⟩
      · exact ⟨⟨[], some blame⟩, _, .none _, fault.not_itemTo, fault⟩

/-- What tokens decompose into is taken from them. -/
theorem takeItems_of_decomposes {tokens left : List SourceToken} {p : Program}
    (decomposes : Decomposes tokens p left) {steps : Nat} (enough : tokens.length ≤ steps) :
    takeItems steps tokens = p := by
  obtain ⟨items, blame⟩ := p
  obtain ⟨read, -, fault⟩ := decomposes
  dsimp only at read fault
  induction read generalizing steps with
  | none tokens =>
      cases blame with
      | none =>
          -- The steps may run out here, where the tokens do.
          cases fault
          cases steps <;> rfl
      | some blame =>
          obtain ⟨first, tail, rfl, failed⟩ := takeItem_of_itemFault fault
          obtain ⟨steps, rfl⟩ := Nat.exists_eq_add_of_lt enough
          rw [takeItems, failed]
  | item first _ ih =>
      have shorter := first.leftOf.length_lt
      obtain ⟨token, tail, rfl, taken⟩ := takeItem_of_itemTo first
      obtain ⟨steps, rfl⟩ := Nat.exists_eq_add_of_lt enough
      rw [takeItems, taken]
      dsimp only
      rw [ih (by simp at shorter; omega) fault]

/-- The program of tokens in the order of their lines is the one they decompose into. -/
theorem decomposes_program {tokens : List SourceToken} (ordered : LinesOrdered tokens) :
    ∃ left, Decomposes tokens (program tokens) left := by
  obtain ⟨p, left, decomposes⟩ := exists_decomposes ordered
  rw [program, takeItems_of_decomposes decomposes le_rfl]
  exact ⟨left, decomposes⟩

/-- Tokens decompose in one way. -/
theorem Decomposes.unique {tokens left left' : List SourceToken} {p p' : Program}
    (decomposes : Decomposes tokens p left) (decomposes' : Decomposes tokens p' left') :
    p' = p ∧ left' = left := by
  have same : p' = p := by
    rw [← takeItems_of_decomposes decomposes le_rfl, takeItems_of_decomposes decomposes' le_rfl]
  subst same
  exact ⟨rfl, decomposes.items.left_unique decomposes'.items⟩

end Source

end WordMachine
