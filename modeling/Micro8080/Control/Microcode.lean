import Micro8080.Control.Word
import Micro8080.Fault
import Micro8080.Instruction.Basic

/-!
# Microcode

An instruction is carried out in stages, one control word each.  Stages 0 to 2 fetch the opcode
and are the same for all; from stage 3 on the words come from the instruction's microprogram, of
which the last word ends the instruction.  Nearly every word moves one value over the bus, from
one source to one target, so `ControlWord.transfer` is how they are written.

At stage 3 an instruction may end early: a branch whose condition fails passes over its operand,
and a call to the system vector is answered by the host in place of the program.  An instruction
that halts does so at whatever stage it is found.
-/

namespace Micro8080

/-! ## Transfers over the bus -/

/-- A part that can drive the bus. -/
inductive BusSource where
  | register (s : Selector)
  | accumulator
  | flags
  | memory
  deriving DecidableEq, Repr

/-- A part that can be loaded from the bus. -/
inductive BusTarget where
  | register (s : Selector)
  | accumulator
  | flags
  /-- The operand latch of the arithmetic unit. -/
  | operand
  /-- The addressed byte. -/
  | memory
  /-- The address register of memory. -/
  | address
  | instruction
  deriving DecidableEq, Repr

namespace ControlWord

/-- The word with one source driving the bus. -/
def driving (w : ControlWord) : BusSource → ControlWord
  | .register s => { w with driveRegister := true, read := s }
  | .accumulator => { w with driveAcc := true }
  | .flags => { w with driveFlags := true }
  | .memory => { w with driveMemory := true }

/-- The word with one target loaded from the bus. -/
def loading (w : ControlWord) : BusTarget → ControlWord
  | .register s => { w with loadRegister := true, write := s }
  | .accumulator => { w with loadAcc := true }
  | .flags => { w with loadFlags := true }
  | .operand => { w with loadOperand := true }
  | .memory => { w with writeMemory := true }
  | .address => { w with loadAddress := true }
  | .instruction => { w with loadInstruction := true }

/-- One value goes over the bus. -/
def transfer (source : BusSource) (target : BusTarget) : ControlWord :=
  (idle.driving source).loading target

/-- The word with a pair counting. -/
def counting (w : ControlWord) (s : Selector) (k : Count) : ControlWord :=
  { w with write := s, count := k }

def executing (w : ControlWord) (op : Operation) : ControlWord :=
  { w with execute := true, opCode := op.code }

def saving (w : ControlWord) : ControlWord := { w with saveAcc := true }

def restoring (w : ControlWord) : ControlWord := { w with restoreAcc := true }

end ControlWord

namespace Microcode

open ControlWord

/-- The source that a register field names. -/
def source (r : Register) : BusSource :=
  match r.selector? with
  | some s => .register s
  | none => .accumulator

def target (r : Register) : BusTarget :=
  match r.selector? with
  | some s => .register s
  | none => .accumulator

/-- The address register takes the value of a pair. -/
def addressFrom (s : Selector) : ControlWord := transfer (.register s) .address

/-- The program counter moves to the next byte. -/
def advance : ControlWord := idle.counting .pc .up

/-- The program counter passes over the operand word of a branch. -/
def passOperand : ControlWord := idle.counting .pc .upTwo

def stepOperation (decrement : Bool) : Operation := if decrement then .dcr else .inr

/-- The word after the opcode goes to WZ.  The program counter ends on its second byte. -/
def fetchWord : List ControlWord :=
  [addressFrom .pc, transfer .memory (.register .z), advance,
    addressFrom .pc, transfer .memory (.register .w)]

def pushByte (s : BusSource) : List ControlWord :=
  [idle.counting .sp .down, addressFrom .sp, transfer s .memory]

def popByte (t : BusTarget) : List ControlWord :=
  [addressFrom .sp, transfer .memory t, idle.counting .sp .up]

/-- The high byte of a pair to push. -/
def pushHigh : StackPair → BusSource
  | .bc => .register .b | .de => .register .d | .hl => .register .h | .psw => .accumulator

def pushLow : StackPair → BusSource
  | .bc => .register .c | .de => .register .e | .hl => .register .l | .psw => .flags

def popHigh : StackPair → BusTarget
  | .bc => .register .b | .de => .register .d | .hl => .register .h | .psw => .accumulator

def popLow : StackPair → BusTarget
  | .bc => .register .c | .de => .register .e | .hl => .register .l | .psw => .flags

/-! ## Microprograms -/

/-- The control words of the stages that fetch an opcode. -/
def fetch : List ControlWord := [addressFrom .pc, transfer .memory .instruction, advance]

/-- The control words of an instruction, from stage 3 on. -/
def program : Instruction → List ControlWord
  | .halt | .unimplemented _ => [{ idle with halt := true }]
  | .moveFromMemory t => [addressFrom .hl, transfer .memory (target t)]
  | .moveToMemory s => [addressFrom .hl, transfer (source s) .memory]
  | .move t s => [transfer (source s) (target t)]
  | .moveImmediateToMemory =>
    [addressFrom .pc, transfer .memory (.register .w),
      addressFrom .hl, transfer (.register .w) .memory, advance]
  | .moveImmediate t => [addressFrom .pc, transfer .memory (target t), advance]
  | .stepMemory decrement =>
    -- the accumulator does the work, and gets its value back with the last word
    [addressFrom .hl, (transfer .memory .accumulator).saving,
      idle.executing (stepOperation decrement), (transfer .accumulator .memory).restoring]
  | .stepRegister t decrement =>
    match t.selector? with
    | none => [idle.executing (stepOperation decrement)]
    | some s =>
      [(transfer (.register s) .accumulator).saving, idle.executing (stepOperation decrement),
        (transfer .accumulator (.register s)).restoring]
  | .stepPair t decrement => [idle.counting t.selector (if decrement then .down else .up)]
  | .loadPairImmediate t =>
    fetchWord ++ [transfer (.register .wz) (.register t.selector), advance]
  | .operateMemory op => [addressFrom .hl, transfer .memory .operand, idle.executing op]
  | .operateRegister op s => [transfer (source s) .operand, idle.executing op]
  | .operateImmediate op =>
    -- the program counter moves while the unit works
    [addressFrom .pc, transfer .memory .operand, advance.executing op]
  | .operateAccumulator op => [idle.executing op]
  | .jump _ => fetchWord ++ [transfer (.register .wz) (.register .pc)]
  | .call _ =>
    -- the program counter is past the operand when it is pushed, low byte first
    fetchWord ++ [advance] ++ pushByte (.register .pcLow) ++ pushByte (.register .pcHigh) ++
      [transfer (.register .wz) (.register .pc)]
  | .ret _ =>
    popByte (.register .w) ++ popByte (.register .z) ++ [transfer (.register .wz) (.register .pc)]
  -- a halt signal with an odd count shows the accumulator instead
  | .output => [{ advance with halt := true }]
  | .exchange =>
    [transfer (.register .de) (.register .wz), transfer (.register .hl) (.register .de),
      transfer (.register .wz) (.register .hl)]
  | .exchangeStackTop =>
    -- WZ keeps HL while its bytes are loaded from the cells that they go to
    [transfer (.register .hl) (.register .wz), addressFrom .sp,
      transfer .memory (.register .l), transfer (.register .z) .memory,
      idle.counting .sp .up, addressFrom .sp,
      transfer .memory (.register .h), transfer (.register .w) .memory,
      idle.counting .sp .down]
  | .jumpHl => [transfer (.register .hl) (.register .pc)]
  | .direct load =>
    fetchWord ++ [advance, addressFrom .wz,
      if load then transfer .memory .accumulator else transfer .accumulator .memory]
  | .push s => pushByte (pushHigh s) ++ pushByte (pushLow s)
  | .pop t => popByte (popLow t) ++ popByte (popHigh t)
  | .addPair s =>
    -- the carry of the low bytes is committed by the time that the high bytes are added
    [(transfer (.register .l) .accumulator).saving, transfer (.register s.low) .operand,
      idle.executing .add, transfer .accumulator (.register .z),
      transfer (.register .h) .accumulator, transfer (.register s.high) .operand,
      idle.executing .adc, (transfer .accumulator (.register .w)).restoring,
      transfer (.register .wz) (.register .hl)]
  | .indirect p load =>
    [transfer (.register p.high) (.register .w), transfer (.register p.low) (.register .z),
      addressFrom .wz, idle,
      if load then transfer .memory .accumulator else transfer .accumulator .memory]

end Microcode

/-- The last stage of an instruction whose microprogram runs to its end. -/
def Instruction.lastStage (i : Instruction) : Nat := 2 + (Microcode.program i).length

/-! ## Decisions -/

/-- A request to the host: a function number and its argument. -/
structure SystemCall where
  /-- The function, from register C. -/
  function : UInt8
  /-- The argument, from DE. -/
  argument : UInt16
  deriving DecidableEq, Repr

namespace Microcode

open ControlWord

/-- The call address that the host answers. -/
def systemVector : UInt16 := 5

/-- What the controller sees of the machine when it decides. -/
structure Probe where
  flags : Flags := {}
  pc : UInt16 := 0
  c : UInt8 := 0
  de : UInt16 := 0
  /-- The word at the program counter. -/
  operand : UInt16 := 0
  deriving Repr

/-- What the controller does at a stage. -/
structure Decision where
  word : ControlWord
  /-- The instruction ends with this stage. -/
  last : Bool
  lastStage : Nat
  /-- A call was passed over. -/
  skipsCall : Bool := false
  halt : Option HaltReason := none
  call : Option SystemCall := none
  deriving Repr

/-- A condition fails; no condition never does. -/
def fails (k : Option Condition) (p : Probe) : Bool := k.any fun k => !k.holds p.flags

/-- How an instruction ends at stage 3 already, if it does. -/
def shortcut (i : Instruction) (p : Probe) : Option Decision :=
  match i with
  | .jump k =>
    if fails k p then some { word := passOperand, last := true, lastStage := i.lastStage }
    else none
  | .call k =>
    -- the host answers a call of its vector whether the condition is met or not
    let skip : Decision := { word := passOperand, last := true, lastStage := 3, skipsCall := true }
    if p.operand = systemVector then
      some { skip with call := some { function := p.c, argument := p.de } }
    else if fails k p then some skip
    else none
  | .ret k =>
    if fails k p then some { word := idle, last := true, lastStage := i.lastStage } else none
  | _ => none

/-- Why an instruction halts the machine, if it does. -/
def haltReason? (i : Instruction) (p : Probe) : Option HaltReason :=
  match i with
  | .halt => some .instruction
  | .unimplemented opcode => some (.unimplemented opcode (p.pc - 1))
  | _ => none

/-- The decision at stage 3 or later, for the opcode in the instruction register. -/
def decision (opcode : UInt8) (stage : Nat) (p : Probe) : Except Fault Decision :=
  let i := Instruction.decode opcode
  match haltReason? i p with
  | some reason =>
    .ok { word := { idle with halt := true }, last := true, lastStage := 3, halt := some reason }
  | none =>
    match if stage = 3 then shortcut i p else none with
    | some decision => .ok decision
    | none =>
      match (program i)[stage - 3]? with
      | some word => .ok { word, last := stage == i.lastStage, lastStage := i.lastStage }
      | none => .error (.noSuchStage opcode stage i.lastStage)

end Microcode

end Micro8080
