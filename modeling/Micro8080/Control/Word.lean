import Micro8080.Alu.Operation
import Micro8080.Register.Selector

/-!
# The control word

At every tock the controller decides a word of 32 bits that tells each part of the machine what
to do in the coming half-ticks.  Here the word is a record of its fields; `bits` packs the
record, most significant bit first, and `ofBits` unpacks it:

| bits   | field                         |
|--------|-------------------------------|
| 31     | halt, or output               |
| 30     | execute the operation         |
| 29     | load the flags                |
| 28     | load the accumulator          |
| 27     | save the accumulator          |
| 26     | restore the accumulator       |
| 25     | load the operand latch        |
| 24..20 | operation code                |
| 19     | accumulator drives the bus    |
| 18     | flags drive the bus           |
| 17..13 | register to read              |
| 12..8  | register to write or count    |
| 7..6   | count                         |
| 5      | register drives the bus       |
| 4      | load the register             |
| 3      | write memory                  |
| 2      | load the memory address       |
| 1      | memory drives the bus         |
| 0      | load the instruction register |

Packing loses nothing: `ofBits_bits` and `bits_ofBits`.
-/

namespace Micro8080

/-- How the pair to write counts, instead of being loaded. -/
inductive Count where
  | none | up | down | upTwo
  deriving DecidableEq, Repr, Inhabited

namespace Count

/-- The two bits that encode a count. -/
def bits : Count → BitVec 2
  | none => 0 | up => 1 | down => 2 | upTwo => 3

def ofBits (v : BitVec 2) : Count :=
  match v.toNat with
  | 1 => up
  | 2 => down
  | 3 => upTwo
  | _ => none

/-- What is added to the pair, modulo 65536. -/
def delta : Count → UInt16
  | none => 0 | up => 1 | down => 65535 | upTwo => 2

/-- A set low bit turns a halt signal into an output signal. -/
def isOdd : Count → Bool
  | up | upTwo => true
  | none | down => false

theorem ofBits_bits (k : Count) : ofBits k.bits = k := by
  cases k <;> rfl

theorem bits_ofBits (v : BitVec 2) : (ofBits v).bits = v := by
  revert v
  decide

end Count

/-- What every part of the machine is told to do. -/
structure ControlWord where
  /-- Halt, or latch an output value if the count is odd. -/
  halt : Bool := false
  execute : Bool := false
  loadFlags : Bool := false
  loadAcc : Bool := false
  /-- Copy the accumulator into the shadow register. -/
  saveAcc : Bool := false
  /-- Copy the shadow register into the accumulator. -/
  restoreAcc : Bool := false
  loadOperand : Bool := false
  opCode : BitVec 5 := 0
  driveAcc : Bool := false
  driveFlags : Bool := false
  /-- The register to read. -/
  read : Selector := .b
  /-- The register to write or count. -/
  write : Selector := .b
  /-- How the register to write counts. -/
  count : Count := .none
  /-- Drive the register to read onto the bus. -/
  driveRegister : Bool := false
  /-- Load the register to write from the bus. -/
  loadRegister : Bool := false
  writeMemory : Bool := false
  loadAddress : Bool := false
  driveMemory : Bool := false
  loadInstruction : Bool := false
  deriving DecidableEq, Repr, Inhabited

/-- The fields of the control word that are one bit wide. -/
inductive Signal where
  | halt | execute | loadFlags | loadAcc | saveAcc | restoreAcc | loadOperand
  | driveAcc | driveFlags | driveRegister | loadRegister
  | writeMemory | loadAddress | driveMemory | loadInstruction
  deriving DecidableEq, Repr

/-- Every signal, from the most significant bit down. -/
def Signal.all : List Signal :=
  [.halt, .execute, .loadFlags, .loadAcc, .saveAcc, .restoreAcc, .loadOperand,
    .driveAcc, .driveFlags, .driveRegister, .loadRegister,
    .writeMemory, .loadAddress, .driveMemory, .loadInstruction]

namespace ControlWord

/-- The word that asks nothing of any part. -/
def idle : ControlWord := {}

/-! ## Packing -/

/-- The word as it goes over the wires. -/
def bits (w : ControlWord) : BitVec 32 :=
  BitVec.ofBool w.halt ++ BitVec.ofBool w.execute ++ BitVec.ofBool w.loadFlags ++
  BitVec.ofBool w.loadAcc ++ BitVec.ofBool w.saveAcc ++ BitVec.ofBool w.restoreAcc ++
  BitVec.ofBool w.loadOperand ++ w.opCode ++ BitVec.ofBool w.driveAcc ++
  BitVec.ofBool w.driveFlags ++ w.read.bits ++ w.write.bits ++ w.count.bits ++
  BitVec.ofBool w.driveRegister ++ BitVec.ofBool w.loadRegister ++
  BitVec.ofBool w.writeMemory ++ BitVec.ofBool w.loadAddress ++
  BitVec.ofBool w.driveMemory ++ BitVec.ofBool w.loadInstruction

/-- The word that 32 wires carry. -/
def ofBits (v : BitVec 32) : ControlWord where
  halt := v.getLsbD 31
  execute := v.getLsbD 30
  loadFlags := v.getLsbD 29
  loadAcc := v.getLsbD 28
  saveAcc := v.getLsbD 27
  restoreAcc := v.getLsbD 26
  loadOperand := v.getLsbD 25
  opCode := v.extractLsb' 20 5
  driveAcc := v.getLsbD 19
  driveFlags := v.getLsbD 18
  read := .ofBits (v.extractLsb' 13 5)
  write := .ofBits (v.extractLsb' 8 5)
  count := .ofBits (v.extractLsb' 6 2)
  driveRegister := v.getLsbD 5
  loadRegister := v.getLsbD 4
  writeMemory := v.getLsbD 3
  loadAddress := v.getLsbD 2
  driveMemory := v.getLsbD 1
  loadInstruction := v.getLsbD 0

/-! ## Signals -/

def has (w : ControlWord) : Signal → Bool
  | .halt => w.halt
  | .execute => w.execute
  | .loadFlags => w.loadFlags
  | .loadAcc => w.loadAcc
  | .saveAcc => w.saveAcc
  | .restoreAcc => w.restoreAcc
  | .loadOperand => w.loadOperand
  | .driveAcc => w.driveAcc
  | .driveFlags => w.driveFlags
  | .driveRegister => w.driveRegister
  | .loadRegister => w.loadRegister
  | .writeMemory => w.writeMemory
  | .loadAddress => w.loadAddress
  | .driveMemory => w.driveMemory
  | .loadInstruction => w.loadInstruction

def assert (w : ControlWord) : Signal → ControlWord
  | .halt => { w with halt := true }
  | .execute => { w with execute := true }
  | .loadFlags => { w with loadFlags := true }
  | .loadAcc => { w with loadAcc := true }
  | .saveAcc => { w with saveAcc := true }
  | .restoreAcc => { w with restoreAcc := true }
  | .loadOperand => { w with loadOperand := true }
  | .driveAcc => { w with driveAcc := true }
  | .driveFlags => { w with driveFlags := true }
  | .driveRegister => { w with driveRegister := true }
  | .loadRegister => { w with loadRegister := true }
  | .writeMemory => { w with writeMemory := true }
  | .loadAddress => { w with loadAddress := true }
  | .driveMemory => { w with driveMemory := true }
  | .loadInstruction => { w with loadInstruction := true }

/-- The asserted signals, from the most significant bit down. -/
def signals (w : ControlWord) : List Signal := Signal.all.filter w.has

/-! ## Readings of several fields at once -/

/-- The machine is at rest. -/
def halts (w : ControlWord) : Bool := w.halt && !w.count.isOdd

/-- The accumulator goes to the output latch. -/
def outputs (w : ControlWord) : Bool := w.halt && w.count.isOdd

/-- How many parts drive the bus. -/
def drivers (w : ControlWord) : Nat :=
  w.driveAcc.toNat + w.driveMemory.toNat + w.driveRegister.toNat + w.driveFlags.toNat

/-- How many signals write the accumulator. -/
def accWriters (w : ControlWord) : Nat :=
  w.loadAcc.toNat + w.restoreAcc.toNat + w.execute.toNat

/-- The word in binary, with its name. -/
def inspect (w : ControlWord) : String :=
  Inspection.call "ControlWord" [Numeral.binary 32 w.bits.toNat]

/-! ## Laws of packing -/

/-- A field that starts at bit `k` is `v` once its bits are. -/
private theorem extract_eq {n k : Nat} {u : BitVec 32} {v : BitVec n}
    (h : ∀ i < n, u.getLsbD (k + i) = v.getLsbD i) : u.extractLsb' k n = v := by
  apply BitVec.eq_of_getLsbD_eq
  intro i hi
  simp only [BitVec.getLsbD_extractLsb', hi, decide_true, Bool.true_and, h i hi]

theorem ofBits_bits (w : ControlWord) : ofBits w.bits = w := by
  have code : w.bits.extractLsb' 20 5 = w.opCode := extract_eq fun i hi => by
    have : i = 0 ∨ i = 1 ∨ i = 2 ∨ i = 3 ∨ i = 4 := by omega
    rcases this with rfl | rfl | rfl | rfl | rfl <;>
      (simp only [bits, BitVec.getLsbD_append, BitVec.getLsbD_ofBool]; simp)
  have read : w.bits.extractLsb' 13 5 = w.read.bits := extract_eq fun i hi => by
    have : i = 0 ∨ i = 1 ∨ i = 2 ∨ i = 3 ∨ i = 4 := by omega
    rcases this with rfl | rfl | rfl | rfl | rfl <;>
      (simp only [bits, BitVec.getLsbD_append, BitVec.getLsbD_ofBool]; simp)
  have write : w.bits.extractLsb' 8 5 = w.write.bits := extract_eq fun i hi => by
    have : i = 0 ∨ i = 1 ∨ i = 2 ∨ i = 3 ∨ i = 4 := by omega
    rcases this with rfl | rfl | rfl | rfl | rfl <;>
      (simp only [bits, BitVec.getLsbD_append, BitVec.getLsbD_ofBool]; simp)
  have count : w.bits.extractLsb' 6 2 = w.count.bits := extract_eq fun i hi => by
    have : i = 0 ∨ i = 1 := by omega
    rcases this with rfl | rfl <;>
      (simp only [bits, BitVec.getLsbD_append, BitVec.getLsbD_ofBool]; simp)
  simp only [ofBits, code, read, write, count, Selector.ofBits_bits, Count.ofBits_bits]
  cases w
  simp only [ControlWord.mk.injEq, true_and]
  refine ⟨?_, ?_, ?_, ?_, ?_, ?_, ?_, ?_, ?_, ?_, ?_, ?_, ?_, ?_, ?_⟩ <;>
    (simp only [bits, BitVec.getLsbD_append, BitVec.getLsbD_ofBool]; simp)

theorem bits_ofBits (v : BitVec 32) : (ofBits v).bits = v := by
  apply BitVec.eq_of_getLsbD_eq
  intro i hi
  simp only [bits, ofBits, Selector.bits_ofBits, Count.bits_ofBits, BitVec.getLsbD_append,
    BitVec.getLsbD_extractLsb', BitVec.getLsbD_ofBool]
  have : i = 0 ∨ i = 1 ∨ i = 2 ∨ i = 3 ∨ i = 4 ∨ i = 5 ∨ i = 6 ∨ i = 7 ∨ i = 8 ∨ i = 9 ∨
      i = 10 ∨ i = 11 ∨ i = 12 ∨ i = 13 ∨ i = 14 ∨ i = 15 ∨ i = 16 ∨ i = 17 ∨ i = 18 ∨
      i = 19 ∨ i = 20 ∨ i = 21 ∨ i = 22 ∨ i = 23 ∨ i = 24 ∨ i = 25 ∨ i = 26 ∨ i = 27 ∨
      i = 28 ∨ i = 29 ∨ i = 30 ∨ i = 31 := by omega
  rcases this with rfl | rfl | rfl | rfl | rfl | rfl | rfl | rfl | rfl | rfl | rfl | rfl | rfl |
    rfl | rfl | rfl | rfl | rfl | rfl | rfl | rfl | rfl | rfl | rfl | rfl | rfl | rfl | rfl |
    rfl | rfl | rfl | rfl <;> simp

end ControlWord

end Micro8080
