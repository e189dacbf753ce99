import Micro8080.Machine.Basic

/-!
# Snapshots

A snapshot is what a machine shows of its state: every register and latch that a program or a
user of the machine can tell apart, and as much of memory as is asked for.
-/

namespace Micro8080

/-- The visible state of a machine. -/
structure Snapshot where
  halfTicks : Nat
  phase : Phase
  word : ControlWord
  /-- The cells of the register file. -/
  cells : Vector UInt8 12
  opcode : UInt8
  acc : UInt8
  stored : UInt8
  operand : UInt8
  carry : Bool
  flags : Flags
  bus : UInt16
  /-- The first bytes of memory. -/
  memory : Array UInt8
  /-- The address register of memory. -/
  address : UInt16
  stage : Nat
  lastStage : Nat
  atLast : Bool
  out : UInt8
  deriving DecidableEq

/-- The visible state of a machine, with this many bytes of memory. -/
def Machine.snapshot (m : Machine) (window : Nat) : Snapshot where
  halfTicks := m.clock.halfTicks
  phase := m.clock.phase
  word := m.sequencer.word
  cells := m.registers.cells
  opcode := m.opcode
  acc := m.alu.acc
  stored := m.alu.stored
  operand := m.alu.operand
  carry := m.alu.carry
  flags := m.alu.flags
  bus := m.bus
  memory := m.memory.window window
  address := m.memory.address
  stage := m.sequencer.stage
  lastStage := m.sequencer.lastStage
  atLast := m.sequencer.atLast
  out := m.out

namespace Snapshot

/-- A register file with the cells of the snapshot. -/
def registers (s : Snapshot) : RegisterFile := { cells := s.cells }

def pc (s : Snapshot) : UInt16 := s.registers.pc

def sp (s : Snapshot) : UInt16 := s.registers.sp

end Snapshot

end Micro8080
