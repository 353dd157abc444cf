import WordMachine.Proofs.Machine.Natives

/-! # The program of a source

A load takes an item, does it and takes the next one. What it takes depends on the tokens alone,
so a source can be taken apart as a whole before any of it is done: a load does the items of this
program in order and reports its fault after all of them (`Machine.Interpreter.load_eq`).
-/

namespace WordMachine

namespace Source

/-- A source taken apart: its items and the fault that ends them, if any. -/
structure Program where
  items : List Item
  blame : Option Blame
  deriving DecidableEq

/-- The items of tokens. Every item uses up one step, so as many steps as tokens are
enough. -/
def takeItems : (steps : Nat) → List SourceToken → Program
  | 0, _ => ⟨[], none⟩
  | _ + 1, [] => ⟨[], none⟩
  | steps + 1, token :: rest =>
    match takeItem token rest with
    | .error blame => ⟨[], some blame⟩
    | .ok (item, after) =>
      let program := takeItems steps after
      { program with items := item :: program.items }

/-- The items of tokens. -/
def program (tokens : List SourceToken) : Program :=
  takeItems tokens.length tokens

end Source

namespace Machine.Interpreter

variable (interpreter : Interpreter)

/-- Does items in order and stops at the first that fails. -/
def performAll (m : Machine) : List Source.Item → Option Source.Loaded
  | [] => some ⟨m, none⟩
  | item :: rest =>
    (interpreter.perform m item).bind fun loaded =>
      match loaded.error with
      | none => performAll loaded.machine rest
      | some _ => some loaded

/-- Does the items of a program and reports its fault, if it has one. -/
def performProgram (m : Machine) (p : Source.Program) : Option Source.Loaded :=
  (interpreter.performAll m p.items).map fun loaded =>
    match loaded.error with
    | none => { loaded with error := p.blame.map .ofBlame }
    | some _ => loaded

theorem performProgram_cons (m : Machine) (item : Source.Item) (items : List Source.Item)
    (blame : Option Source.Blame) :
    interpreter.performProgram m ⟨item :: items, blame⟩ =
      (interpreter.perform m item).bind fun loaded =>
        match loaded.error with
        | none => interpreter.performProgram loaded.machine ⟨items, blame⟩
        | some _ => some loaded := by
  unfold performProgram
  dsimp only
  rw [performAll]
  cases interpreter.perform m item with
  | none => rfl
  | some loaded =>
      simp only [Option.bind_some]
      cases stopped : loaded.error with
      | none => rfl
      | some error => simp [stopped]

/-- Taking items and doing them in turn is doing the items that are taken beforehand, by
induction on the steps: the machine has no part in what is taken. -/
theorem loadTokens_eq (m : Machine) (steps : Nat) (tokens : List SourceToken) :
    Source.loadTokens interpreter.perform m steps tokens =
      interpreter.performProgram m (Source.takeItems steps tokens) := by
  induction steps generalizing m tokens with
  | zero => rfl
  | succ steps ih =>
      cases tokens with
      | nil => rfl
      | cons token rest =>
          rw [Source.loadTokens, Source.takeItems]
          cases Source.takeItem token rest with
          | error blame => rfl
          | ok taken =>
              obtain ⟨item, after⟩ := taken
              calc (interpreter.perform m item).bind (fun loaded =>
                    match loaded.error with
                    | none => Source.loadTokens interpreter.perform loaded.machine steps after
                    | some _ => some loaded)
                  = (interpreter.perform m item).bind (fun loaded =>
                      match loaded.error with
                      | none => interpreter.performProgram loaded.machine
                          (Source.takeItems steps after)
                      | some _ => some loaded) := by simp only [ih]
                _ = _ := (interpreter.performProgram_cons m item _ _).symm

/-- A load does the program of its source. -/
theorem load_eq (m : Machine) (source : String) :
    interpreter.load m source =
      interpreter.performProgram m (Source.program (Source.scan source)) :=
  interpreter.loadTokens_eq m _ _

end Machine.Interpreter

end WordMachine
