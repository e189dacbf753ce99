import Micro8080.Proofs.Computer.Boundary
import Micro8080.Proofs.Computer.Timeline
import Micro8080.Proofs.Machine.Recording
import Micro8080.Proofs.Program.Stages

/-! # The history of a step

A computer that records keeps a snapshot of every half-tick.  A step empties the history, and leaves
in it the two snapshots of each stage of the instruction that it carried out, in the order of the
stages.  How many there are is known before the step: it is a matter of the opcode, of the flags and
of the operand (`ProgramState.lastStage`).
-/

namespace Micro8080

namespace Computer

variable {ω : Type} (see : ω → Event → ω) {c c' : Computer} {w w' : ω}

theorem foldl_recorded {k : Config} (records : k.recordHistory = true) (events : List Event)
    (history : Array Snapshot) :
    events.foldl (recorded k) history =
      history ++ (events.filterMap Event.completed?).map fun m => m.snapshot k.window := by
  induction events generalizing history with
  | nil => simp
  | cons e events ih =>
    rw [List.foldl_cons, ih]
    cases e with
    | completed m => simp [recorded, Event.completed?, records]
    | _ => rfl

end Computer

end Micro8080
