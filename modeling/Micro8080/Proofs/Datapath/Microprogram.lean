import Micro8080.Proofs.Control.Decision
import Micro8080.Proofs.Datapath.Basic

/-! # Microprograms on the datapath

A microprogram does what its instruction means.  The fetch is evaluated once (`run_fetch`), and so
are the parts that microprograms share; each instruction then needs only the words that are its own.
`run_ownWords` puts the cases together, the instructions that end early included.

The datapath commits flags at once, so that a word may rely on the flags of the word before it.
-/

namespace Micro8080

open ControlWord (idle)
open Microcode

/-! ## Addresses -/

theorem add_one_one (a : UInt16) : a + 1 + 1 = a + 2 := by
  rw [UInt16.add_assoc]
  rfl

theorem add_one_two (a : UInt16) : a + 1 + 2 = a + 3 := by
  rw [UInt16.add_assoc]
  rfl

theorem add_two_one (a : UInt16) : a + 2 + 1 = a + 3 := by
  rw [UInt16.add_assoc]
  rfl

theorem sub_one_one (a : UInt16) : a - 1 - 1 = a - 2 := by
  apply UInt16.toNat_inj.1
  simp only [UInt16.toNat_sub, UInt16.reduceToNat]
  omega

theorem Instruction.unary_of_decode {opcode : UInt8} {op : Operation}
    (h : Instruction.decode opcode = .operateAccumulator op) : op.unary = true := by
  have all : ∀ n < 256, ∀ op : Operation,
      Instruction.decode (UInt8.ofNat n) = .operateAccumulator op → op.unary = true := by
    intro n hn op h
    cases op <;> first | rfl | (revert n; decide +kernel)
  exact all opcode.toNat opcode.toNat_lt op (by simpa using h)

/-- The words of an instruction after its fetch, given what the controller sees then. -/
def Microcode.ownWords (i : Instruction) (p : Probe) : List ControlWord :=
  match shortcut i p with
  | some d => [d.word]
  | none => program i

theorem Microcode.ownWords_length_le (i : Instruction) (p : Probe) :
    (ownWords i p).length ≤ 13 := by
  simp only [ownWords]
  split
  · simp
  · exact program_length_le i

namespace Datapath

variable (d : Datapath)

/-! ## Registers that an instruction names -/

@[simp] theorem drive_source (r : Register) : d.drive (source r) = (d.register r).toUInt16 := by
  cases r <;> rfl

@[simp] theorem load_target (v : UInt16) (r : Register) :
    d.load v (target r) = { d with toProgramState := d.setRegister (Word.low v) r } := by
  cases r <;> rfl

@[simp] theorem get_selector (p : RegisterPair) : d.get p.selector = d.pair p := by
  cases p <;> rfl

@[simp] theorem set_selector (v : UInt16) (p : RegisterPair) :
    d.set p.selector v = { d with toProgramState := d.setPair v p } := by
  cases p <;> rfl

@[simp] theorem get_high (p : RegisterPair) : d.get p.high = (Word.high (d.pair p)).toUInt16 := by
  cases p <;>
    simp [RegisterPair.high, ProgramState.pair, ProgramState.bc, ProgramState.de, ProgramState.hl]

@[simp] theorem get_low (p : RegisterPair) : d.get p.low = (Word.low (d.pair p)).toUInt16 := by
  cases p <;>
    simp [RegisterPair.low, ProgramState.pair, ProgramState.bc, ProgramState.de, ProgramState.hl]

/-! ## Parts of microprograms -/

/-- The fetch brings the opcode in and moves the program counter to the next byte. -/
theorem run_fetch :
    d.run fetch =
      { d with address := d.pc, opcode := Ram.read d.memory d.pc, pc := d.pc + 1 } := by
  simp [fetch, ProgramState.read]

theorem run_fetchWord :
    d.run fetchWord =
      { d with
        w := Ram.read d.memory (d.pc + 1)
        z := Ram.read d.memory d.pc
        pc := d.pc + 1
        address := d.pc + 1 } := by
  simp [fetchWord, ProgramState.read]

theorem run_pushByte (s : BusSource) :
    d.run (pushByte s) =
      { d with
        memory := Ram.write d.memory (d.sp - 1)
          (Word.low (({ d with sp := d.sp - 1, address := d.sp - 1 } : Datapath).drive s))
        sp := d.sp - 1
        address := d.sp - 1 } := by
  simp [pushByte]

theorem run_popByte (t : BusTarget) :
    d.run (popByte t) =
      ((({ d with address := d.sp } : Datapath).load
        (Ram.read d.memory d.sp).toUInt16 t).obey (idle.counting .sp .up)) := by
  simp [popByte, ProgramState.read]

/-! ## Moves -/

open ProgramState

theorem run_moveFromMemory (t : Register) :
    ((d.run fetch).run (program (.moveFromMemory t))).toProgramState =
      d.execute (.moveFromMemory t) := by
  cases t <;> simp [run_fetch, program, execute, setRegister, past, ProgramState.read, hl]

theorem run_moveToMemory (r : Register) :
    ((d.run fetch).run (program (.moveToMemory r))).toProgramState =
      d.execute (.moveToMemory r) := by
  cases r <;> simp [run_fetch, program, execute, register, past, ProgramState.write, hl]

theorem run_move (t r : Register) :
    ((d.run fetch).run (program (.move t r))).toProgramState = d.execute (.move t r) := by
  cases t <;> cases r <;> simp [run_fetch, program, execute, setRegister, register, past]

theorem run_moveImmediateToMemory :
    ((d.run fetch).run (program .moveImmediateToMemory)).toProgramState =
      d.execute .moveImmediateToMemory := by
  simp [run_fetch, program, execute, past, operandByte, ProgramState.read, ProgramState.write, hl,
    add_one_one]

theorem run_moveImmediate (t : Register) :
    ((d.run fetch).run (program (.moveImmediate t))).toProgramState =
      d.execute (.moveImmediate t) := by
  cases t <;>
    simp [run_fetch, program, execute, setRegister, past, operandByte, ProgramState.read,
      add_one_one]

theorem run_loadPairImmediate (p : RegisterPair) :
    ((d.run fetch).run (program (.loadPairImmediate p))).toProgramState =
      d.execute (.loadPairImmediate p) := by
  cases p <;>
    simp [run_fetch, run_fetchWord, program, execute, setPair, past, operandWord, Ram.readWord,
      add_one_one, add_two_one]

theorem run_exchange :
    ((d.run fetch).run (program .exchange)).toProgramState = d.execute .exchange := by
  simp [run_fetch, program, execute, de, hl, past]

theorem run_direct (load : Bool) :
    ((d.run fetch).run (program (.direct load))).toProgramState = d.execute (.direct load) := by
  cases load <;>
    simp [run_fetch, run_fetchWord, program, execute, past, operandWord, ProgramState.read,
      ProgramState.write, Ram.readWord, add_one_one, add_two_one]

theorem run_indirect (p : RegisterPair) (load : Bool) :
    ((d.run fetch).run (program (.indirect p load))).toProgramState =
      d.execute (.indirect p load) := by
  cases p <;> cases load <;>
    simp [run_fetch, program, execute, past, pair, bc, de, hl, ProgramState.read,
      ProgramState.write]

theorem run_output :
    ((d.run fetch).run (program .output)).toProgramState = d.execute .output := by
  simp [run_fetch, program, execute, past, add_one_one]

theorem run_halting :
    ((d.run fetch).run [{ idle with halt := true }]).toProgramState = d.past 1 := by
  simp [run_fetch, past]

/-! ## Branches -/

theorem run_jump {k : Option Condition} (taken : d.meets k = true) :
    ((d.run fetch).run (program (.jump k))).toProgramState = d.execute (.jump k) := by
  simp [run_fetch, run_fetchWord, program, execute, jump, taken, operandWord, Ram.readWord]

theorem run_call {k : Option Condition} (own : d.operandWord ≠ systemVector)
    (taken : d.meets k = true) :
    ((d.run fetch).run (program (.call k))).toProgramState = d.execute (.call k) := by
  rw [execute, call, if_pos ⟨own, taken⟩]
  simp [run_fetch, run_fetchWord, run_pushByte, program, pushBytes, ProgramState.write,
    operandWord, Ram.readWord, sub_one_one, add_one_one, add_two_one]

theorem run_ret {k : Option Condition} (taken : d.meets k = true) :
    ((d.run fetch).run (program (.ret k))).toProgramState = d.execute (.ret k) := by
  simp [run_fetch, run_popByte, program, execute, ret, taken, ProgramState.read, add_one_one]

theorem run_jumpHl :
    ((d.run fetch).run (program .jumpHl)).toProgramState = d.execute .jumpHl := by
  simp [run_fetch, program, execute, hl]

/-! ## The stack -/

theorem run_push (p : StackPair) :
    ((d.run fetch).run (program (.push p))).toProgramState = d.execute (.push p) := by
  cases p <;>
    simp [run_fetch, run_pushByte, program, pushHigh, pushLow, execute, push, pushBytes, past,
      ProgramState.write, sub_one_one]

theorem run_pop (p : StackPair) :
    ((d.run fetch).run (program (.pop p))).toProgramState = d.execute (.pop p) := by
  cases p <;>
    simp [run_fetch, run_popByte, program, popHigh, popLow, execute, pop, past, ProgramState.read,
      add_one_one]

/-- The byte above the top of the stack is read after the byte on top was written. -/
theorem run_exchangeStackTop :
    ((d.run fetch).run (program .exchangeStackTop)).toProgramState =
      d.execute .exchangeStackTop := by
  simp [run_fetch, program, execute, exchangeStackTop, past, ProgramState.read,
    ProgramState.write, hl, Ram.read_write_succ]

/-! ## Steps and sums of words -/

theorem stepOperation_ne_daa (decrement : Bool) : stepOperation decrement ≠ .daa := by
  cases decrement <;> simp [stepOperation]

theorem stepOperation_ne_cmp (decrement : Bool) : stepOperation decrement ≠ .cmp := by
  cases decrement <;> simp [stepOperation]

theorem run_stepPair (p : RegisterPair) (decrement : Bool) :
    ((d.run fetch).run (program (.stepPair p decrement))).toProgramState =
      d.execute (.stepPair p decrement) := by
  cases p <;> cases decrement <;>
    simp [run_fetch, program, execute, past, pair, setPair, bc, de, hl]

theorem run_stepRegister (t : Register) (decrement : Bool) :
    ((d.run fetch).run (program (.stepRegister t decrement))).toProgramState =
      d.execute (.stepRegister t decrement) := by
  have executes := stepOperation_ne_daa decrement
  have keeps := stepOperation_ne_cmp decrement
  cases t <;> simp [run_fetch, program, Register.selector?_eq, executes, keeps] <;>
    cases decrement <;> rfl

theorem run_stepMemory (decrement : Bool) :
    ((d.run fetch).run (program (.stepMemory decrement))).toProgramState =
      d.execute (.stepMemory decrement) := by
  have executes := stepOperation_ne_daa decrement
  have keeps := stepOperation_ne_cmp decrement
  simp [run_fetch, program, executes, keeps]
  cases decrement <;> rfl

theorem run_addPair (p : RegisterPair) :
    ((d.run fetch).run (program (.addPair p))).toProgramState = d.execute (.addPair p) := by
  obtain ⟨low, high, carry⟩ := Alu.word_add d.hl (d.pair p) rfl rfl
  -- only these lemmas, since arithmetic on bytes must keep the form that `word_add` gives it
  cases p <;>
    simp only [run_fetch, program, run_cons, run_nil, obey_saving, obey_transfer, obey_executing,
      obey_restoring_register, drive_register, drive_accumulator, load_operand, load_accumulator,
      load_register, get_l, get_h, get_wz, get_low, get_high, set_w, set_z, set_hl,
      Word.low_toUInt16, Word.low_ofBytes, Word.high_ofBytes, operate, arithmetic, pair, bc, de, hl,
      execute, addPair, setPair, past, Flags.ofResult, ne_eq, reduceCtorEq, not_false_eq_true,
      if_false] at low high carry ⊢ <;>
    rw [low, high, carry]

/-! ## Operations -/

theorem run_operateMemory {op : Operation} (h : op ≠ .daa) :
    ((d.run fetch).run (program (.operateMemory op))).toProgramState =
      d.execute (.operateMemory op) := by
  simp [run_fetch, program, h]
  cases op <;> rfl

theorem run_operateRegister {op : Operation} (h : op ≠ .daa) (r : Register) :
    ((d.run fetch).run (program (.operateRegister op r))).toProgramState =
      d.execute (.operateRegister op r) := by
  simp [run_fetch, program, h]
  cases op <;> cases r <;> rfl

theorem run_operateImmediate {op : Operation} (h : op ≠ .daa) :
    ((d.run fetch).run (program (.operateImmediate op))).toProgramState =
      d.execute (.operateImmediate op) := by
  simp [run_fetch, program, h, add_one_one]
  cases op <;> rfl

/-- The operand latch holds whatever the last operation left there. -/
theorem run_operateAccumulator {op : Operation} (h : op ≠ .daa) (unary : op.unary = true) :
    ((d.run fetch).run (program (.operateAccumulator op))).toProgramState =
      d.execute (.operateAccumulator op) := by
  rw [execute, operate_of_unary _ unary d.acc d.operand]
  simp [run_fetch, program, h]
  cases op <;> rfl

/-! ## Instructions -/

theorem fails_eq (s : ProgramState) (k : Option Condition) : fails k s.probe = !s.meets k := by
  cases k <;> simp [fails, meets, ProgramState.probe]

/-- After its fetch an instruction does what it means, by a shortcut or by its microprogram. -/
theorem run_ownWords {i : Instruction} (named : i.operation? ≠ some .daa)
    (unary : ∀ op, i = .operateAccumulator op → op.unary = true) :
    ((d.run fetch).run (ownWords i d.probe)).toProgramState = d.execute i := by
  -- only branches take shortcuts: all other cases are microprograms, one lemma each
  cases i <;> simp only [ownWords, shortcut]
  case halt => exact d.run_halting
  case moveFromMemory t => exact d.run_moveFromMemory t
  case moveToMemory r => exact d.run_moveToMemory r
  case move t r => exact d.run_move t r
  case moveImmediateToMemory => exact d.run_moveImmediateToMemory
  case moveImmediate t => exact d.run_moveImmediate t
  case stepMemory decrement => exact d.run_stepMemory decrement
  case stepRegister t decrement => exact d.run_stepRegister t decrement
  case stepPair p decrement => exact d.run_stepPair p decrement
  case loadPairImmediate p => exact d.run_loadPairImmediate p
  case operateMemory op => exact d.run_operateMemory fun h => named (congrArg some h)
  case operateRegister op r => exact d.run_operateRegister (fun h => named (congrArg some h)) r
  case operateImmediate op => exact d.run_operateImmediate fun h => named (congrArg some h)
  case operateAccumulator op =>
    exact d.run_operateAccumulator (fun h => named (congrArg some h)) (unary op rfl)
  case jump k =>
    rw [fails_eq]
    cases taken : d.meets k with
    | true => exact d.run_jump taken
    | false => simp [run_fetch, execute, jump, past, taken, add_one_two]
  case call k =>
    rw [fails_eq]
    by_cases own : d.operandWord = systemVector
    · simp [run_fetch, execute, call, past, ProgramState.probe, own, add_one_two]
    · cases taken : d.meets k with
      | true =>
        have answers : ¬ d.probe.operand = systemVector := own
        simp only [if_neg answers]
        exact d.run_call own taken
      | false =>
        simp [run_fetch, execute, call, past, ProgramState.probe, own, taken, add_one_two]
  case ret k =>
    rw [fails_eq]
    cases taken : d.meets k with
    | true => exact d.run_ret taken
    | false => simp [run_fetch, execute, ret, past, taken]
  case output => exact d.run_output
  case exchange => exact d.run_exchange
  case exchangeStackTop => exact d.run_exchangeStackTop
  case jumpHl => exact d.run_jumpHl
  case direct load => exact d.run_direct load
  case push p => exact d.run_push p
  case pop p => exact d.run_pop p
  case addPair p => exact d.run_addPair p
  case indirect p load => exact d.run_indirect p load
  case unimplemented => exact d.run_halting

end Datapath

end Micro8080
