import Micro8080.Proofs.Alu.Arithmetic
import Micro8080.Proofs.Control.Lawful
import Micro8080.Proofs.Program.State

/-! # The datapath

One period of the machine is a tock, in which a word is decided, and the tick after it, in which
the word is obeyed.  The flags follow late: an operation at a tick shows in the flag register only
at the tock of the next period.  The datapath hides this delay.  It holds the registers as they are
once pending flags have been committed, and a word acts on it in a single step, `Datapath.obey`.

The lemmas of this module say what each kind of word does: a transfer brings what its source drives
to its target, a count moves a pair, an execution operates.  With them a microprogram is evaluated
word by word.
-/

namespace Micro8080

@[simp] theorem Word.low_toUInt16 (v : UInt8) : Word.low v.toUInt16 = v := by
  apply UInt8.toNat_inj.1
  have := v.toNat_lt
  simp only [Word.toNat_low, UInt8.toNat_toUInt16]
  omega

/-- What the words of a microprogram act on: the state of the program, and the registers and latches
that a program cannot name. -/
structure Datapath extends ProgramState where
  w : UInt8
  z : UInt8
  opcode : UInt8
  address : UInt16
  /-- The shadow register. -/
  stored : UInt8
  operand : UInt8
  /-- The carry of the last operation. -/
  carry : Bool
  deriving DecidableEq

namespace Datapath

/-! ## Registers by selector -/

def get (d : Datapath) (s : Selector) : UInt16 :=
  match s.pair, s.cell.toNat with
  | false, 0 => d.b.toUInt16 | false, 1 => d.c.toUInt16
  | false, 2 => d.d.toUInt16 | false, 3 => d.e.toUInt16
  | false, 4 => d.h.toUInt16 | false, 5 => d.l.toUInt16
  | false, 6 => d.w.toUInt16 | false, 7 => d.z.toUInt16
  | false, 8 => (Word.high d.pc).toUInt16 | false, 9 => (Word.low d.pc).toUInt16
  | false, 10 => (Word.high d.sp).toUInt16 | false, 11 => (Word.low d.sp).toUInt16
  | true, 0 => d.bc | true, 2 => d.de | true, 4 => d.hl
  | true, 6 => Word.ofBytes d.w d.z | true, 8 => d.pc | true, 10 => d.sp
  | _, _ => 0

def set (d : Datapath) (s : Selector) (v : UInt16) : Datapath :=
  match s.pair, s.cell.toNat with
  | false, 0 => { d with b := Word.low v } | false, 1 => { d with c := Word.low v }
  | false, 2 => { d with d := Word.low v } | false, 3 => { d with e := Word.low v }
  | false, 4 => { d with h := Word.low v } | false, 5 => { d with l := Word.low v }
  | false, 6 => { d with w := Word.low v } | false, 7 => { d with z := Word.low v }
  | false, 8 => { d with pc := Word.ofBytes (Word.low v) (Word.low d.pc) }
  | false, 9 => { d with pc := Word.ofBytes (Word.high d.pc) (Word.low v) }
  | false, 10 => { d with sp := Word.ofBytes (Word.low v) (Word.low d.sp) }
  | false, 11 => { d with sp := Word.ofBytes (Word.high d.sp) (Word.low v) }
  | true, 0 => { d with b := Word.high v, c := Word.low v }
  | true, 2 => { d with d := Word.high v, e := Word.low v }
  | true, 4 => { d with h := Word.high v, l := Word.low v }
  | true, 6 => { d with w := Word.high v, z := Word.low v }
  | true, 8 => { d with pc := v } | true, 10 => { d with sp := v }
  | _, _ => d

/-! ## Words -/

/-- The arithmetic unit of the datapath, its output latches apart. -/
def alu (d : Datapath) : Alu where
  acc := d.acc
  stored := d.stored
  operand := d.operand
  carry := d.carry
  flags := d.flags

def bus (d : Datapath) (w : ControlWord) : UInt16 :=
  if w.driveAcc then d.acc.toUInt16
  else if w.driveMemory then (d.read d.address).toUInt16
  else if w.driveRegister then d.get w.read
  else if w.driveFlags then d.flags.toByte.toUInt16
  else 0

def latch (d : Datapath) (w : ControlWord) : Datapath :=
  if w.count = .none then if w.loadRegister then d.set w.write (d.bus w) else d
  else d.set w.write (d.get w.write + w.count.delta)

/-- The arithmetic unit after a word, with the flags that it leaves. -/
def operated (d : Datapath) (w : ControlWord) : Alu :=
  let risen := (d.alu.rise w (d.bus w)).1
  match risen.fall w (d.bus w) with
  | .ok a => a
  | .error _ => risen

/-- The datapath after a word.  No two parts of a word touch the same field. -/
def obey (d : Datapath) (w : ControlWord) : Datapath :=
  { d.latch w with
    acc := (d.operated w).acc
    flags := (d.operated w).flags
    stored := (d.operated w).stored
    operand := (d.operated w).operand
    carry := (d.operated w).carry
    memory := if w.writeMemory then Ram.write d.memory d.address (Word.low (d.bus w)) else d.memory
    address := if w.loadAddress then d.bus w else d.address
    opcode := if w.loadInstruction then Word.low (d.bus w) else d.opcode
    out := if w.outputs then d.acc else d.out }

def run (d : Datapath) (ws : List ControlWord) : Datapath := ws.foldl obey d

@[simp] theorem run_nil (d : Datapath) : d.run [] = d := rfl

@[simp] theorem run_cons (d : Datapath) (w : ControlWord) (ws : List ControlWord) :
    d.run (w :: ws) = (d.obey w).run ws := rfl

@[simp] theorem run_append (d : Datapath) (ws vs : List ControlWord) :
    d.run (ws ++ vs) = (d.run ws).run vs := List.foldl_append

/-! ## Transfers -/

/-- What a source drives onto the bus. -/
def drive (d : Datapath) : BusSource → UInt16
  | .register s => d.get s
  | .accumulator => d.acc.toUInt16
  | .flags => d.flags.toByte.toUInt16
  | .memory => (d.read d.address).toUInt16

/-- What becomes of a value on the bus. -/
def load (d : Datapath) (v : UInt16) : BusTarget → Datapath
  | .register s => d.set s v
  | .accumulator => { d with acc := Word.low v }
  | .flags => { d with flags := .ofByte (Word.low v) }
  | .operand => { d with operand := Word.low v }
  | .memory => { d with memory := Ram.write d.memory d.address (Word.low v) }
  | .address => { d with address := v }
  | .instruction => { d with opcode := Word.low v }

section Named

variable (d : Datapath) (v : UInt16)

@[simp] theorem drive_register (s : Selector) : d.drive (.register s) = d.get s := rfl
@[simp] theorem drive_accumulator : d.drive .accumulator = d.acc.toUInt16 := rfl
@[simp] theorem drive_flags : d.drive .flags = d.flags.toByte.toUInt16 := rfl
@[simp] theorem drive_memory : d.drive .memory = (d.read d.address).toUInt16 := rfl

@[simp] theorem load_register (s : Selector) : d.load v (.register s) = d.set s v := rfl
@[simp] theorem load_accumulator : d.load v .accumulator = { d with acc := Word.low v } := rfl
@[simp] theorem load_flags : d.load v .flags = { d with flags := .ofByte (Word.low v) } := rfl
@[simp] theorem load_operand : d.load v .operand = { d with operand := Word.low v } := rfl
@[simp] theorem load_memory :
    d.load v .memory = { d with memory := Ram.write d.memory d.address (Word.low v) } := rfl
@[simp] theorem load_address : d.load v .address = { d with address := v } := rfl
@[simp] theorem load_instruction :
    d.load v .instruction = { d with opcode := Word.low v } := rfl

@[simp] theorem get_b : d.get .b = d.b.toUInt16 := rfl
@[simp] theorem get_c : d.get .c = d.c.toUInt16 := rfl
@[simp] theorem get_d : d.get .d = d.d.toUInt16 := rfl
@[simp] theorem get_e : d.get .e = d.e.toUInt16 := rfl
@[simp] theorem get_h : d.get .h = d.h.toUInt16 := rfl
@[simp] theorem get_l : d.get .l = d.l.toUInt16 := rfl
@[simp] theorem get_w : d.get .w = d.w.toUInt16 := rfl
@[simp] theorem get_z : d.get .z = d.z.toUInt16 := rfl
@[simp] theorem get_pcHigh : d.get .pcHigh = (Word.high d.pc).toUInt16 := rfl
@[simp] theorem get_pcLow : d.get .pcLow = (Word.low d.pc).toUInt16 := rfl
@[simp] theorem get_spHigh : d.get .spHigh = (Word.high d.sp).toUInt16 := rfl
@[simp] theorem get_spLow : d.get .spLow = (Word.low d.sp).toUInt16 := rfl
@[simp] theorem get_de : d.get .de = d.de := rfl
@[simp] theorem get_hl : d.get .hl = d.hl := rfl
@[simp] theorem get_wz : d.get .wz = Word.ofBytes d.w d.z := rfl
@[simp] theorem get_pc : d.get .pc = d.pc := rfl
@[simp] theorem get_sp : d.get .sp = d.sp := rfl

@[simp] theorem set_b : d.set .b v = { d with b := Word.low v } := rfl
@[simp] theorem set_c : d.set .c v = { d with c := Word.low v } := rfl
@[simp] theorem set_d : d.set .d v = { d with d := Word.low v } := rfl
@[simp] theorem set_e : d.set .e v = { d with e := Word.low v } := rfl
@[simp] theorem set_h : d.set .h v = { d with h := Word.low v } := rfl
@[simp] theorem set_l : d.set .l v = { d with l := Word.low v } := rfl
@[simp] theorem set_w : d.set .w v = { d with w := Word.low v } := rfl
@[simp] theorem set_z : d.set .z v = { d with z := Word.low v } := rfl
@[simp] theorem set_de : d.set .de v = { d with d := Word.high v, e := Word.low v } := rfl
@[simp] theorem set_hl : d.set .hl v = { d with h := Word.high v, l := Word.low v } := rfl
@[simp] theorem set_wz : d.set .wz v = { d with w := Word.high v, z := Word.low v } := rfl
@[simp] theorem set_pc : d.set .pc v = { d with pc := v } := rfl
@[simp] theorem set_sp : d.set .sp v = { d with sp := v } := rfl

end Named

theorem set_frame (d : Datapath) (s : Selector) (v : UInt16) :
    { d.set s v with
      acc := d.acc, flags := d.flags, memory := d.memory, out := d.out, opcode := d.opcode
      address := d.address, stored := d.stored, operand := d.operand, carry := d.carry } =
      d.set s v := by
  simp only [set]
  split <;> rfl

open ControlWord

@[simp] theorem obey_transfer (d : Datapath) (s : BusSource) (t : BusTarget) :
    d.obey (transfer s t) = d.load (d.drive s) t := by
  cases t with
  | register r => cases s <;> exact set_frame d r _
  | _ => cases s <;> rfl

/-- The accumulator is saved in the period in which it is loaded. -/
@[simp] theorem obey_saving (d : Datapath) (s : BusSource) :
    d.obey (transfer s .accumulator).saving =
      { d with stored := d.acc, acc := Word.low (d.drive s) } := by
  cases s <;> rfl

/-- The accumulator is restored in the period in which its value goes to a register. -/
@[simp] theorem obey_restoring_register (d : Datapath) (r : Selector) :
    d.obey (transfer .accumulator (.register r)).restoring =
      { d.set r d.acc.toUInt16 with acc := d.stored } := by
  have frame := set_frame d r d.acc.toUInt16
  rw [← frame]
  rfl

@[simp] theorem obey_restoring_memory (d : Datapath) :
    d.obey (transfer .accumulator .memory).restoring =
      { d with memory := Ram.write d.memory d.address d.acc, acc := d.stored } := by
  have written : Ram.write d.memory d.address (Word.low d.acc.toUInt16) =
      Ram.write d.memory d.address d.acc := by
    rw [Word.low_toUInt16]
  rw [← written]
  rfl

/-! ## Counts -/

theorem obey_counting (d : Datapath) (s : Selector) {k : Count} (h : k ≠ .none) :
    d.obey (idle.counting s k) = d.set s (d.get s + k.delta) := by
  have frame := set_frame d s (d.get s + k.delta)
  cases k with
  | none => exact absurd rfl h
  | _ => exact frame

@[simp] theorem obey_up (d : Datapath) (s : Selector) :
    d.obey (idle.counting s .up) = d.set s (d.get s + 1) := by
  rw [obey_counting d s (by decide), Count.delta]

@[simp] theorem obey_down (d : Datapath) (s : Selector) :
    d.obey (idle.counting s .down) = d.set s (d.get s - 1) := by
  rw [obey_counting d s (by decide), UInt16.sub_eq_add_neg]
  rfl

@[simp] theorem obey_addressFrom (d : Datapath) (s : Selector) :
    d.obey (Microcode.addressFrom s) = { d with address := d.get s } := by
  rw [Microcode.addressFrom, obey_transfer, load, drive]

@[simp] theorem obey_advance (d : Datapath) :
    d.obey Microcode.advance = { d with pc := d.pc + 1 } := by
  rw [Microcode.advance, obey_up, get_pc, set_pc]

@[simp] theorem obey_passOperand (d : Datapath) :
    d.obey Microcode.passOperand = { d with pc := d.pc + 2 } := by
  rw [Microcode.passOperand, obey_counting d .pc (by decide), get_pc, set_pc, Count.delta]

@[simp] theorem obey_idle (d : Datapath) : d.obey idle = d := rfl

@[simp] theorem obey_halting (d : Datapath) : d.obey { idle with halt := true } = d := rfl

@[simp] theorem obey_output (d : Datapath) :
    d.obey { Microcode.advance with halt := true } = { d with pc := d.pc + 1, out := d.acc } := rfl

/-! ## Operations -/

theorem flags_of_result (v : UInt8) (carry : Bool) :
    { zero := v == 0, carry, parity := Alu.evenParity v, sign := Alu.topBit v } =
      Flags.ofResult v carry := by
  rw [Flags.ofResult, Alu.evenParity_eq, Alu.topBit_eq_msb]

theorem alu_add (d : Datapath) (c : Bool) (raw : Int)
    (h : (d.acc.toNat + d.operand.toNat + c.toNat : Int) = raw) :
    (d.alu.add c).acc = (d.arithmetic raw).acc ∧
    Flags.ofResult (d.alu.add c).acc (d.alu.add c).carry = (d.arithmetic raw).flags := by
  subst h
  rw [Alu.add_acc, Alu.add_carry]
  exact ⟨rfl, rfl⟩

theorem alu_subtract (d : Datapath) (c : Bool) (raw : Int)
    (h : (d.acc.toNat - d.operand.toNat - c.toNat : Int) = raw) :
    (d.alu.subtract c).acc = (d.arithmetic raw).acc ∧
    Flags.ofResult (d.alu.subtract c).acc (d.alu.subtract c).carry = (d.arithmetic raw).flags := by
  subst h
  rw [Alu.subtract_acc, Alu.subtract_carry]
  exact ⟨rfl, rfl⟩

/-- What the unit does in the period of an operation is what the operation means. -/
theorem operated_executing (d : Datapath) {op : Operation} (h : op ≠ .daa) :
    (d.operated (idle.executing op)).acc = (d.operate d.operand op).acc ∧
    (d.operated (idle.executing op)).flags = (d.operate d.operand op).flags ∧
    (d.operated (idle.executing op)).stored = (if op = .cmp then d.acc - d.operand else d.stored) ∧
    (d.operated (idle.executing op)).operand = d.operand := by
  cases op
  case daa => exact absurd rfl h
  case add =>
    obtain ⟨acc, flags⟩ := d.alu_add false (d.acc.toNat + d.operand.toNat) (by simp)
    exact ⟨acc, (flags_of_result _ _).trans flags, rfl, rfl⟩
  case adc =>
    obtain ⟨acc, flags⟩ := d.alu_add d.flags.carry _ rfl
    exact ⟨acc, (flags_of_result _ _).trans flags, rfl, rfl⟩
  case sub =>
    obtain ⟨acc, flags⟩ := d.alu_subtract false (d.acc.toNat - d.operand.toNat) (by simp)
    exact ⟨acc, (flags_of_result _ _).trans flags, rfl, rfl⟩
  case sbb =>
    obtain ⟨acc, flags⟩ := d.alu_subtract d.flags.carry _ rfl
    exact ⟨acc, (flags_of_result _ _).trans flags, rfl, rfl⟩
  case cmp =>
    have zero := Alu.sub_beq_zero d.acc d.operand
    have flags : (d.operated (idle.executing .cmp)).flags =
        { d.flags with
          zero := d.acc - d.operand == 0, carry := Alu.topBit (d.acc - d.operand) } := rfl
    exact ⟨rfl, by rw [flags, zero, Alu.topBit_eq_msb]; rfl, rfl, rfl⟩
  case rlc =>
    have flags : (d.operated (idle.executing .rlc)).flags =
        { d.flags with carry := Alu.topBit d.acc } := rfl
    exact ⟨rfl, by rw [flags, Alu.topBit_eq]; rfl, rfl, rfl⟩
  case rrc =>
    have flags : (d.operated (idle.executing .rrc)).flags =
        { d.flags with carry := Alu.lowBit d.acc } := rfl
    exact ⟨rfl, by rw [flags, Alu.lowBit_eq]; rfl, rfl, rfl⟩
  case ral =>
    obtain ⟨acc, carry⟩ := Alu.rotateLeft_through d.acc d.flags.carry
    have flags : (d.operated (idle.executing .ral)).flags =
        { d.flags with carry := Alu.topBit d.acc } := rfl
    exact ⟨acc, by rw [flags, carry]; rfl, rfl, rfl⟩
  case rar =>
    obtain ⟨acc, carry⟩ := Alu.rotateRight_through d.acc d.flags.carry
    have flags : (d.operated (idle.executing .rar)).flags =
        { d.flags with carry := Alu.lowBit d.acc } := rfl
    exact ⟨acc, by rw [flags, carry]; rfl, rfl, rfl⟩
  case ana | xra | ora | inr | dcr => exact ⟨rfl, flags_of_result _ _, rfl, rfl⟩
  all_goals exact ⟨rfl, rfl, rfl, rfl⟩

theorem operate_frame (s : ProgramState) (x : UInt8) (op : Operation) :
    { s with acc := (s.operate x op).acc, flags := (s.operate x op).flags } = s.operate x op := by
  cases op <;> rfl

/-- What an operation does to the datapath.  A comparison also uses the shadow register. -/
@[simp] theorem obey_executing (d : Datapath) {op : Operation} (h : op ≠ .daa) :
    d.obey (idle.executing op) =
      { d with
        toProgramState := d.operate d.operand op
        stored := if op = .cmp then d.acc - d.operand else d.stored
        carry := (d.operated (idle.executing op)).carry } := by
  obtain ⟨acc, flags, stored, operand⟩ := d.operated_executing h
  have obeyed : d.obey (idle.executing op) =
      { d with
        acc := (d.operated (idle.executing op)).acc
        flags := (d.operated (idle.executing op)).flags
        stored := (d.operated (idle.executing op)).stored
        operand := (d.operated (idle.executing op)).operand
        carry := (d.operated (idle.executing op)).carry } := rfl
  rw [obeyed, acc, flags, stored, operand, ← operate_frame]

@[simp] theorem obey_advance_executing (d : Datapath) (op : Operation) :
    d.obey (Microcode.advance.executing op) =
      { d.obey (idle.executing op) with pc := d.pc + 1 } := rfl

end Datapath

end Micro8080
