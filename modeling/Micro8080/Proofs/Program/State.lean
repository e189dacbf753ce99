import Micro8080.Alu.Basic
import Micro8080.Machine.Basic

/-! # What a program sees

Between two instructions a program can tell apart the accumulator, the flags, six byte registers,
two pointers, the contents of memory and the value last shown.  `ProgramState` holds these and
nothing else: no scratch register, no latch, no stage.  The meaning of every instruction is a
function on it, `ProgramState.execute`, which knows nothing of buses and control words.

Addresses wrap at 65536 because they are words, and memory repeats every 2048 of them.
-/

namespace Micro8080

/-! ## Memory -/

abbrev Ram : Type := Vector UInt8 2048

namespace Ram

theorem cell_lt (a : UInt16) : a.toNat % 2048 < 2048 := Nat.mod_lt _ (by decide)

def read (r : Ram) (a : UInt16) : UInt8 := getElem r (a.toNat % 2048) (cell_lt a)

/-- The word at an address, low byte first. -/
def readWord (r : Ram) (a : UInt16) : UInt16 := Word.ofBytes (read r (a + 1)) (read r a)

def write (r : Ram) (a : UInt16) (v : UInt8) : Ram := r.set (a.toNat % 2048) v (cell_lt a)

theorem read_write (r : Ram) (a b : UInt16) (v : UInt8) :
    read (write r a v) b = if a.toNat % 2048 = b.toNat % 2048 then v else read r b := by
  simp only [read, write, Vector.getElem_set]

/-- Neighbouring addresses are different cells, also across the end of memory. -/
theorem succ_cell_ne (a : UInt16) : a.toNat % 2048 ≠ (a + 1).toNat % 2048 := by
  have := a.toNat_lt
  rw [UInt16.toNat_add]
  simp only [UInt16.reduceToNat]
  omega

theorem read_write_succ (r : Ram) (a : UInt16) (v : UInt8) :
    read (write r a v) (a + 1) = read r (a + 1) := by
  rw [read_write, if_neg (succ_cell_ne a)]

end Ram

/-- The flags that a result and a carry leave: the parity is that of the number of ones, the sign the
highest bit. -/
def Flags.ofResult (v : UInt8) (carry : Bool) : Flags where
  zero := v == 0
  carry := carry
  parity := v.toBitVec.cpop.toNat % 2 == 0
  sign := v.toBitVec.msb

/-- The operation has no operand but the accumulator. -/
def Operation.unary : Operation → Bool
  | .rlc | .rrc | .ral | .rar | .daa | .cma | .stc | .cmc | .inr | .dcr => true
  | _ => false

/-- The registers, flags and memory that a program can name, and the value last shown. -/
structure ProgramState where
  acc : UInt8
  flags : Flags
  b : UInt8
  c : UInt8
  d : UInt8
  e : UInt8
  h : UInt8
  l : UInt8
  pc : UInt16
  sp : UInt16
  memory : Ram
  out : UInt8
  deriving DecidableEq

namespace ProgramState

variable (s : ProgramState)

/-! ## Operands -/

def bc : UInt16 := Word.ofBytes s.b s.c

def de : UInt16 := Word.ofBytes s.d s.e

def hl : UInt16 := Word.ofBytes s.h s.l

def read (a : UInt16) : UInt8 := Ram.read s.memory a

def write (a : UInt16) (v : UInt8) : ProgramState := { s with memory := Ram.write s.memory a v }

def operandByte : UInt8 := s.read (s.pc + 1)

def operandWord : UInt16 := Ram.readWord s.memory (s.pc + 1)

def instruction : Instruction := .decode (s.read s.pc)

def register : Register → UInt8
  | .b => s.b | .c => s.c | .d => s.d | .e => s.e | .h => s.h | .l => s.l | .a => s.acc

def setRegister (v : UInt8) : Register → ProgramState
  | .b => { s with b := v } | .c => { s with c := v } | .d => { s with d := v }
  | .e => { s with e := v } | .h => { s with h := v } | .l => { s with l := v }
  | .a => { s with acc := v }

def pair : RegisterPair → UInt16
  | .bc => s.bc | .de => s.de | .hl => s.hl | .sp => s.sp

def setPair (v : UInt16) : RegisterPair → ProgramState
  | .bc => { s with b := Word.high v, c := Word.low v }
  | .de => { s with d := Word.high v, e := Word.low v }
  | .hl => { s with h := Word.high v, l := Word.low v }
  | .sp => { s with sp := v }

/-- The program counter passes over an instruction of `n` bytes. -/
def past (n : UInt16) : ProgramState := { s with pc := s.pc + n }

/-- What the controller sees of the state once the opcode is fetched. -/
def probe : Microcode.Probe where
  flags := s.flags
  pc := s.pc + 1
  c := s.c
  de := s.de
  operand := s.operandWord

/-- The condition of a branch is met; a branch without a condition is always taken. -/
def meets (k : Option Condition) : Bool := k.all fun k => k.holds s.flags

/-! ## Arithmetic -/

/-- The accumulator and the flags after a computation over the integers. -/
def arithmetic (raw : Int) : ProgramState :=
  { s with
    acc := .ofInt raw
    flags := .ofResult (.ofInt raw) (decide (raw < 0 ∨ 255 < raw)) }

/-- The accumulator and the flags after a bitwise operation. -/
def bitwise (v : UInt8) : ProgramState := { s with acc := v, flags := .ofResult v false }

/-- Flags that show a value, with the carry as it was. -/
def shows (v : UInt8) : Flags := .ofResult v s.flags.carry

/-- The carry and the accumulator as nine bits in a row. -/
def ring : BitVec 9 := BitVec.ofBool s.flags.carry ++ s.acc.toBitVec

/-- The accumulator and the carry taken out of nine bits in a row. -/
def ofRing (r : BitVec 9) : ProgramState :=
  { s with acc := .ofBitVec (r.setWidth 8), flags := { s.flags with carry := r.msb } }

/-- What an operation does to the accumulator and the flags, given the other operand. -/
def operate (x : UInt8) : Operation → ProgramState
  | .add => s.arithmetic (s.acc.toNat + x.toNat)
  | .adc => s.arithmetic (s.acc.toNat + x.toNat + s.flags.carry.toNat)
  | .sub => s.arithmetic (s.acc.toNat - x.toNat)
  | .sbb => s.arithmetic (s.acc.toNat - x.toNat - s.flags.carry.toNat)
  | .ana => s.bitwise (s.acc &&& x)
  | .xra => s.bitwise (s.acc ^^^ x)
  | .ora => s.bitwise (s.acc ||| x)
  | .cmp =>
    { s with flags := { s.flags with zero := s.acc == x, carry := (s.acc - x).toBitVec.msb } }
  | .rlc =>
    { s with
      acc := .ofBitVec (s.acc.toBitVec.rotateLeft 1)
      flags := { s.flags with carry := s.acc.toBitVec.getLsbD 7 } }
  | .rrc =>
    { s with
      acc := .ofBitVec (s.acc.toBitVec.rotateRight 1)
      flags := { s.flags with carry := s.acc.toBitVec.getLsbD 0 } }
  | .ral => s.ofRing (s.ring.rotateLeft 1)
  | .rar => s.ofRing (s.ring.rotateRight 1)
  | .daa => s
  | .cma => { s with acc := ~~~s.acc }
  | .stc => { s with flags := { s.flags with carry := true } }
  | .cmc => { s with flags := { s.flags with carry := !s.flags.carry } }
  | .inr => { s with acc := s.acc + 1, flags := s.shows (s.acc + 1) }
  | .dcr => { s with acc := s.acc - 1, flags := s.shows (s.acc - 1) }

theorem operate_of_unary {op : Operation} (h : op.unary = true) (x y : UInt8) :
    s.operate x op = s.operate y op := by
  cases op <;> first | rfl | cases h

def neighbour (decrement : Bool) (v : UInt8) : UInt8 := if decrement then v - 1 else v + 1

/-! ## The stack -/

/-- A word goes on the stack, its first byte at the higher address. -/
def pushBytes (first second : UInt8) : ProgramState :=
  { (s.write (s.sp - 1) first).write (s.sp - 2) second with sp := s.sp - 2 }

def push : StackPair → ProgramState
  | .bc => s.pushBytes s.b s.c
  | .de => s.pushBytes s.d s.e
  | .hl => s.pushBytes s.h s.l
  | .psw => s.pushBytes s.acc s.flags.toByte

def pop : StackPair → ProgramState
  | .bc => { s with c := s.read s.sp, b := s.read (s.sp + 1), sp := s.sp + 2 }
  | .de => { s with e := s.read s.sp, d := s.read (s.sp + 1), sp := s.sp + 2 }
  | .hl => { s with l := s.read s.sp, h := s.read (s.sp + 1), sp := s.sp + 2 }
  | .psw =>
    { s with flags := .ofByte (s.read s.sp), acc := s.read (s.sp + 1), sp := s.sp + 2 }

/-- HL and the word on top of the stack change places. -/
def exchangeStackTop : ProgramState :=
  { (s.write s.sp s.l).write (s.sp + 1) s.h with l := s.read s.sp, h := s.read (s.sp + 1) }

/-! ## Branches -/

def jump (k : Option Condition) : ProgramState :=
  if s.meets k then { s with pc := s.operandWord } else s.past 3

/-- A call of the system vector is answered by the host, and passed over by the program.  The
return address goes on the stack with its low byte first. -/
def call (k : Option Condition) : ProgramState :=
  if s.operandWord ≠ Microcode.systemVector ∧ s.meets k = true then
    { s.pushBytes (Word.low (s.pc + 3)) (Word.high (s.pc + 3)) with pc := s.operandWord }
  else s.past 3

def ret (k : Option Condition) : ProgramState :=
  if s.meets k then
    { s with pc := Word.ofBytes (s.read s.sp) (s.read (s.sp + 1)), sp := s.sp + 2 }
  else s.past 1

/-! ## Instructions -/

/-- The sum of HL and a pair goes to HL; the flags show its high byte. -/
def addPair (p : RegisterPair) : ProgramState :=
  let sum := s.hl + s.pair p
  { s.setPair sum .hl with
    flags := .ofResult (Word.high sum) (decide (65536 ≤ s.hl.toNat + (s.pair p).toNat)) }

def execute : Instruction → ProgramState
  | .halt | .unimplemented _ => s.past 1
  | .moveFromMemory t => (s.setRegister (s.read s.hl) t).past 1
  | .moveToMemory r => (s.write s.hl (s.register r)).past 1
  | .move t r => (s.setRegister (s.register r) t).past 1
  | .moveImmediateToMemory => (s.write s.hl s.operandByte).past 2
  | .moveImmediate t => (s.setRegister s.operandByte t).past 2
  | .stepMemory decrement =>
    let v := neighbour decrement (s.read s.hl)
    { s.write s.hl v with flags := s.shows v }.past 1
  | .stepRegister t decrement =>
    let v := neighbour decrement (s.register t)
    { s.setRegister v t with flags := s.shows v }.past 1
  | .stepPair p decrement =>
    (s.setPair (if decrement then s.pair p - 1 else s.pair p + 1) p).past 1
  | .loadPairImmediate p => (s.setPair s.operandWord p).past 3
  | .operateMemory op => (s.operate (s.read s.hl) op).past 1
  | .operateRegister op r => (s.operate (s.register r) op).past 1
  | .operateImmediate op => (s.operate s.operandByte op).past 2
  | .operateAccumulator op => (s.operate s.acc op).past 1
  | .jump k => s.jump k
  | .call k => s.call k
  | .ret k => s.ret k
  | .output => { s with out := s.acc }.past 2
  | .exchange => { s with d := s.h, e := s.l, h := s.d, l := s.e }.past 1
  | .exchangeStackTop => s.exchangeStackTop.past 1
  | .jumpHl => { s with pc := s.hl }
  | .direct load =>
    (if load then { s with acc := s.read s.operandWord } else s.write s.operandWord s.acc).past 3
  | .push p => (s.push p).past 1
  | .pop p => (s.pop p).past 1
  | .addPair p => (s.addPair p).past 1
  | .indirect p load =>
    (if load then { s with acc := s.read (s.pair p) } else s.write (s.pair p) s.acc).past 1

end ProgramState

/-! ## The state of a machine -/

namespace Machine

/-- The flags as the next falling edge leaves them. -/
def committedFlags (m : Machine) : Flags :=
  match m.alu.fall m.sequencer.word m.bus with
  | .ok a => a.flags
  | .error _ => m.alu.flags

/-- What a program sees of a machine between two instructions. -/
def programState (m : Machine) : ProgramState where
  acc := m.alu.acc
  flags := m.committedFlags
  b := m.registers.b
  c := m.registers.c
  d := m.registers.d
  e := m.registers.e
  h := m.registers.h
  l := m.registers.l
  pc := m.registers.pc
  sp := m.registers.sp
  memory := m.memory.bytes
  out := m.out

/-- An image that fits goes to memory, with zeros after it, and nothing else is set. -/
theorem powerOn_of_fits {image : Array UInt8} (fits : image.size ≤ 2048) :
    powerOn image = ({ memory := { bytes := .ofFn fun i => image[i.val]?.getD 0 } }, none) := by
  have loads : image.size ≤ Memory.capacity := fits
  simp only [powerOn_eq, Memory.load, if_pos loads, Fin.getElem_fin, Vector.getElem_replicate]

theorem powerOn_of_too_large {image : Array UInt8} (large : 2048 < image.size) :
    powerOn image = ({}, some (.imageTooLarge image.size 2048)) := by
  have refused : ¬ image.size ≤ Memory.capacity := Nat.not_le.2 large
  simp only [powerOn_eq, Memory.load, if_neg refused]
  rfl

theorem pc_powerOn (image : Array UInt8) : (powerOn image).1.pc = 0 := by
  simp only [powerOn_eq]
  split <;> simp [pc, RegisterFile.pc, Word.ofBytes]

theorem read_powerOn {image : Array UInt8} (fits : image.size ≤ 2048) (a : UInt16) :
    (powerOn image).1.memory.read a = image[a.toNat % 2048]?.getD 0 := by
  rw [powerOn_of_fits fits]
  simp only [Memory.read, Vector.getElem_ofFn]

end Machine

end Micro8080
