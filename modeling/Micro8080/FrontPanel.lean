import Micro8080.Computer.Basic

/-!
# The front panel

A front panel is a computer and the program last loaded into it, to which a reset returns.  An
image that does not fit resets the computer all the same, but is not kept.
-/

namespace Micro8080

/-- A computer and the image that a reset loads. -/
structure FrontPanel where
  computer : Computer := .new {}
  image : Array UInt8 := #[]

namespace FrontPanel

/-- Loads an image and keeps it if it fits. -/
def load (p : FrontPanel) (image : Array UInt8) : FrontPanel × Except Fault Unit :=
  match p.computer.reset image with
  | (computer, .ok _) => ({ computer, image }, .ok ())
  | (computer, .error fault) => ({ p with computer }, .error fault)

/-- Loads the image that was kept. -/
def reset (p : FrontPanel) : FrontPanel × Except Fault Unit :=
  let (computer, result) := p.computer.reset p.image
  ({ p with computer }, result)

/-- The instruction a step carried out, and the snapshots taken meanwhile. -/
structure StepReport where
  row : Listing.Row
  snapshots : Array Snapshot

variable {ω : Type} (see : ω → Event → ω)

/-- One instruction.  The row is that at the program counter before the step. -/
def step (p : FrontPanel) (w : ω) : FrontPanel × ω × Except Fault StepReport :=
  let m := p.computer.machine
  let row := m.memory.disassemble m.pc
  let (computer, w, result) := p.computer.step see w
  ({ p with computer }, w, result.map fun _ => { row, snapshots := computer.history })

end FrontPanel

end Micro8080
