import Micro8080.Alu.Basic
import Micro8080.Bus
import Micro8080.Clock
import Micro8080.Control.Sequencer
import Micro8080.Memory
import Micro8080.Register.File

/-!
# The machine

A machine is the state of all its parts, together with a reset line, the latch that `OUT` shows,
and the fault that stopped it, if one did.  What a host sees of a run, such as a history or a
log, is no part of the machine.
-/

namespace Micro8080

/-- The state of every part. -/
structure Machine where
  clock : Clock := {}
  sequencer : Sequencer := {}
  registers : RegisterFile := {}
  /-- The instruction register. -/
  opcode : UInt8 := 0
  alu : Alu := {}
  bus : UInt16 := 0
  memory : Memory := {}
  /-- The reset line is up: the next half-tick clears every part. -/
  resetPending : Bool := false
  /-- The last value shown by `OUT`. -/
  out : UInt8 := 0
  /-- The fault that stopped the machine. -/
  fault : Option Fault := none
  deriving DecidableEq, Inhabited

namespace Machine

/-- Resets the parts one after the other, and takes the reset line down.  The output latch and a
fault are not parts. -/
def clearParts (m : Machine) : Machine :=
  { m with
    clock := {}, sequencer := {}, registers := {}, opcode := 0, alu := {}, bus := 0, memory := {}
    resetPending := false }

/-- Resets all there is, and loads an image at address zero.  An image that does not fit leaves
memory empty. -/
def reset (m : Machine) (image : Array UInt8) : Machine × Option Fault :=
  let m := { m.clearParts with out := 0, fault := none }
  match m.memory.load image with
  | .ok memory => ({ m with memory }, none)
  | .error fault => (m, some fault)

/-- A machine that was just switched on, with an image at address zero. -/
def powerOn (image : Array UInt8) : Machine × Option Fault := ({} : Machine).reset image

/-- A reset does not look at what it resets. -/
theorem reset_eq_powerOn (m : Machine) (image : Array UInt8) : m.reset image = powerOn image := rfl

theorem powerOn_eq (image : Array UInt8) :
    powerOn image =
      match ({} : Memory).load image with
      | .ok memory => ({ memory }, none)
      | .error fault => ({}, some fault) := rfl

/-- Raises the reset line. -/
def pulseReset (m : Machine) : Machine := { m with resetPending := true }

/-- The machine has come to rest. -/
def halted (m : Machine) : Bool := m.sequencer.word.halts

def haltReason (m : Machine) : Option HaltReason := m.sequencer.haltReason

def pc (m : Machine) : UInt16 := m.registers.pc

/-- What the sequencer sees when it decides. -/
def probe (m : Machine) : Microcode.Probe where
  flags := m.alu.flagsOut
  pc := m.registers.pc
  c := m.registers.c
  de := m.registers.de
  operand := m.memory.readWord m.registers.pc

/-- What the bus sees when it settles. -/
def busSources (m : Machine) : Bus.Sources where
  acc := m.alu.out
  memory := m.memory.out
  register := m.registers.out
  flags := m.alu.flagsOut.toByte

end Machine

end Micro8080
