import Mathlib.Order.Lattice
import WordMachine.Proofs.Machine.HostFunctions

/-! # The bound on nested calls

What ends within a bound on the nesting of calls ends in the same way within every larger one.
So the bound only says when a run is given up, and not how it ends. This takes host functions that
cannot tell a call that was given up from one that never ends.
-/

namespace WordMachine

namespace Machine

theorem simulation_eq : Simulation (fun _ => True) (fun _ => False) fun m m' => m' = m := by
  have kept : Invariant (fun _ => True) fun _ => True :=
    { number := fun _ _ => trivial
      push := fun _ _ _ => trivial
      core := fun _ _ => trivial
      console := fun _ _ => trivial
      define := fun _ _ _ _ => trivial
      forget := fun _ _ => trivial
      record := fun _ _ => trivial
      enter := fun _ => trivial
      leave := fun _ => trivial
      resolved := fun _ _ body _ _ => ⟨by cases body <;> exact trivial, trivial⟩ }
  simpa only [and_true] using kept.simulation

/-- What a function does with an interpreter it does with one that answers more. -/
def NativeFunction.Steady (f : NativeFunction) : Prop :=
  f.Respects (fun _ => False) fun m m' => m' = m

section Steady

variable {natives : Natives} (steady : natives.OwnOr NativeFunction.Steady)

include steady

/-- What the machine does within a bound it does within the next one, by induction on the bound.
Both interpreters start from a machine and call on interpreters that follow each other. -/
theorem interpretersFollow_succ (bound : Nat) :
    InterpretersFollow Eq (fun _ => False) (fun m m' => m' = m) (natives.interpret bound)
      (natives.interpret (bound + 1)) := by
  have lockstep : Lockstep Eq (fun _ => False) (fun m m' => m' = m) natives natives :=
    simulation_eq.lockstep_of_host (congrArg Machine.dictionary) steady
  apply lockstep.interpretWith
  induction bound with
  | zero => exact fun _ _ _ _ _ _ ended => nomatch ended
  | succ bound ih => exact lockstep.interpretWith ih

/-- A load that ends within a bound ends in the same way within every larger one. -/
theorem load_of_le {bound larger : Nat} (within : bound ≤ larger) {m : Machine} {source : String}
    {loaded : Source.Loaded} (ended : (natives.interpret bound).load m source = some loaded) :
    (natives.interpret larger).load m source = some loaded := by
  induction larger, within using Nat.le_induction with
  | base => exact ended
  | succ larger _ ih =>
      have follows := (interpretersFollow_succ steady larger).load simulation_eq.toKeptBySteps
        (rfl : m = m) source
      obtain ⟨loaded', reached, alike⟩ := follows.exists_endAlike ih
      have same : loaded' = loaded := by
        obtain ⟨last, error⟩ := loaded
        obtain ⟨last', error'⟩ := loaded'
        cases alike.error
        cases alike.machine
        rfl
      rw [reached, same]

end Steady

end Machine

end WordMachine
