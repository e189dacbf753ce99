import Micro8080.Proofs.Program.Step

/-! # Steps from a boundary

A computer is at a boundary after a reset, and after every successful step from a boundary.  A step
from a boundary succeeds on all opcodes but that of the decimal adjustment, and does to the state
that a program sees what the instruction at the program counter means (`Boundary.steps`).

The theorems of the later sections spell this out for groups of instructions.
-/

namespace Micro8080.Computer

variable {ω : Type} {see : ω → Event → ω}

/-- The computer and its watcher after a reset, with any image, and any number of successful
steps. -/
inductive Boundary (see : ω → Event → ω) : Computer → ω → Prop where
  | reset (c : Computer) (image : Array UInt8) (w : ω) : Boundary see (c.reset image).1 w
  | step {c c' : Computer} {w w' : ω} (before : Boundary see c w)
      (ok : c.step see w = (c', w', .ok ())) : Boundary see c' w'

/-- A step succeeds and leaves a program with the state `s`, of which the next instruction observes
the flags. -/
def StepsTo (see : ω → Event → ω) (c : Computer) (w : ω) (s : ProgramState) : Prop :=
  ∃ c' w', c.step see w = (c', w', .ok ()) ∧ c'.machine.programState = s ∧
    c'.machine.Observes s.flags

variable {c : Computer} {w : ω}

theorem operation_of_step (ready : c.machine.Ready) {c' : Computer} {w' : ω}
    (ok : c.step see w = (c', w', .ok ())) :
    c.machine.programState.instruction.operation? ≠ some .daa := by
  intro adjusts
  have result : (c.step see w).2.2 = .ok () := by rw [ok]
  rw [result_step, Moment.result, ready.instruct_refused adjusts] at result
  cases result

theorem Boundary.ready (h : Boundary see c w) : c.machine.Ready := by
  induction h with
  | reset c image w => exact Machine.ready_powerOn image
  | @step c c' w w' before ok ih =>
    have machine : c'.machine = c.machine.instruct.machine := by rw [← machine_step see c w, ok]
    rw [machine]
    exact (ih.instruct (operation_of_step ih ok)).2.1

/-- A step between two instructions does what the instruction at the program counter means. -/
theorem steps_of_ready (ready : c.machine.Ready)
    (named : c.machine.programState.instruction.operation? ≠ some .daa) :
    StepsTo see c w (c.machine.programState.execute c.machine.programState.instruction) := by
  obtain ⟨ok, after, meaning, -⟩ := ready.instruct named
  refine ⟨(c.step see w).1, (c.step see w).2.1, ?_, ?_, ?_⟩
  · have result : (c.step see w).2.2 = .ok () := by rw [result_step, Moment.result, ok]
    rw [← result]
  · rw [machine_step, meaning]
  · rw [machine_step, ← meaning]
    exact after.observes

/-- A step that succeeds did what the instruction means. -/
theorem Boundary.execute_of_step (h : Boundary see c w) {c' : Computer} {w' : ω}
    (ok : c.step see w = (c', w', .ok ())) :
    c'.machine.programState =
      c.machine.programState.execute c.machine.programState.instruction := by
  obtain ⟨c₁, w₁, stepped, meaning, -⟩ :=
    steps_of_ready h.ready (operation_of_step h.ready ok)
  rw [ok] at stepped
  cases stepped
  exact meaning

theorem Boundary.steps (h : Boundary see c w)
    (named : c.machine.programState.instruction.operation? ≠ some .daa) :
    StepsTo see c w (c.machine.programState.execute c.machine.programState.instruction) :=
  steps_of_ready h.ready named

theorem Boundary.steps_of_eq (h : Boundary see c w) {i : Instruction}
    (at_pc : c.machine.programState.instruction = i) (named : i.operation? ≠ some .daa) :
    StepsTo see c w (c.machine.programState.execute i) := by
  subst at_pc
  exact h.steps named

theorem instruction_reset (c : Computer) {image : Array UInt8} (fits : image.size ≤ 2048) :
    (c.reset image).1.machine.programState.instruction = .decode (image[0]?.getD 0) := by
  have opcode : (Machine.powerOn image).1.memory.read (Machine.powerOn image).1.pc =
      image[0]?.getD 0 := by
    rw [Machine.pc_powerOn, Machine.read_powerOn fits]
    rfl
  exact congrArg Instruction.decode opcode

theorem operandWord_reset (c : Computer) {image : Array UInt8} (fits : image.size ≤ 2048) :
    (c.reset image).1.machine.programState.operandWord =
      Word.ofBytes (image[2]?.getD 0) (image[1]?.getD 0) := by
  have pc : (c.reset image).1.machine.programState.pc = 0 := Machine.pc_powerOn image
  have high := Machine.read_powerOn fits 2
  have low := Machine.read_powerOn fits 1
  rw [ProgramState.operandWord, pc]
  exact congr (congrArg Word.ofBytes high) low

theorem cleared_reset (c : Computer) (image : Array UInt8) :
    (c.reset image).1.machine.programState.acc = 0 ∧
      (c.reset image).1.machine.programState.flags = {} := by
  simp only [reset, Machine.reset_eq_powerOn, Machine.powerOn_eq]
  split <;> exact ⟨rfl, rfl⟩

/-! ## Branches and the stack -/

/-- Branches go on at their target if their condition is met by the flags before, and the stack
grows downwards, with the high byte of a pair, but the low byte of a return address, at the higher
address. -/
theorem Boundary.step_branches_and_stack (h : Boundary see c w) :
    let s := c.machine.programState
    (∀ k, s.instruction = .jump k →
      StepsTo see c w (if s.meets k then { s with pc := s.operandWord } else s.past 3)) ∧
    (∀ k, s.instruction = .call k →
      StepsTo see c w
        (if s.operandWord ≠ 5 ∧ s.meets k then
          { s.pushBytes (Word.low (s.pc + 3)) (Word.high (s.pc + 3)) with pc := s.operandWord }
        else s.past 3)) ∧
    (∀ k, s.instruction = .ret k →
      StepsTo see c w
        (if s.meets k then
          { s with
            pc := .ofNat ((s.read s.sp).toNat * 256 + (s.read (s.sp + 1)).toNat)
            sp := s.sp + 2 }
        else s.past 1)) ∧
    (s.instruction = .jumpHl → StepsTo see c w { s with pc := s.hl }) ∧
    (∀ p, s.instruction = .push p → StepsTo see c w ((s.push p).past 1)) ∧
    (∀ p, s.instruction = .pop p → StepsTo see c w ((s.pop p).past 1)) ∧
    (s.instruction = .exchangeStackTop → StepsTo see c w (s.exchangeStackTop.past 1)) := by
  refine ⟨fun k e => ?_, fun k e => ?_, fun k e => ?_, fun e => ?_, fun p e => ?_, fun p e => ?_,
    fun e => ?_⟩
  all_goals
    exact h.steps_of_eq e (by simp [Instruction.operation?])

theorem step_branches_and_stack_call :
    let c := ((new {}).reset #[0xCD, 0x08, 0x00]).1
    let s := c.machine.programState
    StepsTo (fun _ _ => ()) c ()
      (if s.operandWord ≠ 5 ∧ s.meets none then
        { s.pushBytes (Word.low (s.pc + 3)) (Word.high (s.pc + 3)) with pc := s.operandWord }
      else s.past 3) :=
  (Boundary.reset (new {}) #[0xCD, 0x08, 0x00] ()).step_branches_and_stack.2.1 none
    (instruction_reset (new {}) (by decide))

/-! ## Operations -/

/-- The operations of the arithmetic unit write the accumulator and the flags as `operate` says,
wherever their operand comes from. -/
theorem Boundary.step_operations (h : Boundary see c w) :
    let s := c.machine.programState
    (∀ op r, s.instruction = .operateRegister op r →
      StepsTo see c w ((s.operate (s.register r) op).past 1)) ∧
    (∀ op, s.instruction = .operateMemory op →
      StepsTo see c w ((s.operate (s.read s.hl) op).past 1)) ∧
    (∀ op, s.instruction = .operateImmediate op →
      StepsTo see c w ((s.operate s.operandByte op).past 2)) ∧
    (∀ op, s.instruction = .operateAccumulator op → op ≠ .daa →
      StepsTo see c w ((s.operate s.acc op).past 1)) := by
  refine ⟨fun op r e => ?_, fun op e => ?_, fun op e => ?_, fun op e supported => ?_⟩
  · exact h.steps_of_eq e (Microcode.operation_ne_daa e (by simp))
  · exact h.steps_of_eq e (Microcode.operation_ne_daa e (by simp))
  · exact h.steps_of_eq e (Microcode.operation_ne_daa e (by simp))
  · exact h.steps_of_eq e fun named => supported (Option.some.inj named)

theorem step_operations_immediate :
    let c := ((new {}).reset #[0xC6, 0xFF]).1
    let s := c.machine.programState
    StepsTo (fun _ _ => ()) c () ((s.operate s.operandByte .add).past 2) :=
  (Boundary.reset (new {}) #[0xC6, 0xFF] ()).step_operations.2.2.1 .add
    (instruction_reset (new {}) (by decide))

/-! ## Steps of one and sums of words -/

/-- Counting leaves the carry alone, or all flags in the case of a pair.  The sum of two pairs shows
in the flags by its high byte.  The accumulator is borrowed, and given back. -/
theorem Boundary.step_counts_and_sums (h : Boundary see c w) :
    let s := c.machine.programState
    (∀ t decrement, s.instruction = .stepRegister t decrement →
      let v := if decrement then s.register t - 1 else s.register t + 1
      StepsTo see c w
        ({ s.setRegister v t with flags := .ofResult v s.flags.carry }.past 1)) ∧
    (∀ decrement, s.instruction = .stepMemory decrement →
      let v := if decrement then s.read s.hl - 1 else s.read s.hl + 1
      StepsTo see c w
        ({ s.write s.hl v with flags := .ofResult v s.flags.carry }.past 1)) ∧
    (∀ p decrement, s.instruction = .stepPair p decrement →
      StepsTo see c w
        ((s.setPair (if decrement then s.pair p - 1 else s.pair p + 1) p).past 1)) ∧
    (∀ p, s.instruction = .addPair p →
      let sum := s.hl + s.pair p
      StepsTo see c w
        ({ s with
            h := Word.high sum
            l := Word.low sum
            flags := .ofResult (Word.high sum)
              (decide (65536 ≤ s.hl.toNat + (s.pair p).toNat)) }.past 1)) := by
  refine ⟨fun t decrement e => ?_, fun decrement e => ?_, fun p decrement e => ?_, fun p e => ?_⟩
  all_goals exact h.steps_of_eq e (by simp [Instruction.operation?])

theorem step_counts_and_sums_double :
    let c := ((new {}).reset #[0x29]).1
    let s := c.machine.programState
    let sum := s.hl + s.hl
    StepsTo (fun _ _ => ()) c ()
      ({ s with
          h := Word.high sum
          l := Word.low sum
          flags := .ofResult (Word.high sum)
            (decide (65536 ≤ s.hl.toNat + s.hl.toNat)) }.past 1) :=
  (Boundary.reset (new {}) #[0x29] ()).step_counts_and_sums.2.2.2 .hl
    (instruction_reset (new {}) (by decide))

/-! ## Moves -/

/-- A move brings the value that its source had to its destination, and leaves everything else
alone.  Operands follow the opcode, low byte first. -/
theorem Boundary.step_moves (h : Boundary see c w) :
    let s := c.machine.programState
    let byte := s.read (s.pc + 1)
    let word := Word.ofBytes (s.read (s.pc + 2)) (s.read (s.pc + 1))
    (∀ t r, s.instruction = .move t r →
      StepsTo see c w ((s.setRegister (s.register r) t).past 1)) ∧
    (∀ t, s.instruction = .moveFromMemory t →
      StepsTo see c w ((s.setRegister (s.read s.hl) t).past 1)) ∧
    (∀ r, s.instruction = .moveToMemory r →
      StepsTo see c w ((s.write s.hl (s.register r)).past 1)) ∧
    (∀ t, s.instruction = .moveImmediate t →
      StepsTo see c w ((s.setRegister byte t).past 2)) ∧
    (s.instruction = .moveImmediateToMemory → StepsTo see c w ((s.write s.hl byte).past 2)) ∧
    (∀ p, s.instruction = .loadPairImmediate p → StepsTo see c w ((s.setPair word p).past 3)) ∧
    (s.instruction = .direct true → StepsTo see c w ({ s with acc := s.read word }.past 3)) ∧
    (s.instruction = .direct false → StepsTo see c w ((s.write word s.acc).past 3)) ∧
    (∀ p, s.instruction = .indirect p true →
      StepsTo see c w ({ s with acc := s.read (s.pair p) }.past 1)) ∧
    (∀ p, s.instruction = .indirect p false →
      StepsTo see c w ((s.write (s.pair p) s.acc).past 1)) ∧
    (s.instruction = .exchange →
      StepsTo see c w ({ s with d := s.h, e := s.l, h := s.d, l := s.e }.past 1)) ∧
    (s.instruction = .output → StepsTo see c w ({ s with out := s.acc }.past 2)) := by
  intro s byte word
  have moves {i : Instruction} (at_pc : s.instruction = i) (none : i.operation? = none) :
      StepsTo see c w (s.execute i) := h.steps_of_eq at_pc (by simp [none])
  have operand : s.operandWord = word := by
    simp only [ProgramState.operandWord, Ram.readWord, add_one_one]
    rfl
  refine ⟨fun t r e => moves e rfl, fun t e => moves e rfl, fun r e => moves e rfl,
    fun t e => moves e rfl, fun e => moves e rfl, fun p e => ?_, fun e => ?_, fun e => ?_,
    fun p e => moves e rfl, fun p e => moves e rfl, fun e => moves e rfl, fun e => moves e rfl⟩
  · rw [← operand]
    exact moves e rfl
  · rw [← operand]
    exact moves e rfl
  · rw [← operand]
    exact moves e rfl

theorem step_moves_pair :
    let c := ((new {}).reset #[0x21, 0x34, 0x12]).1
    let s := c.machine.programState
    StepsTo (fun _ _ => ()) c ()
      ((s.setPair (Word.ofBytes (s.read (s.pc + 2)) (s.read (s.pc + 1))) .hl).past 3) :=
  (Boundary.reset (new {}) #[0x21, 0x34, 0x12] ()).step_moves.2.2.2.2.2.1 .hl
    (instruction_reset (new {}) (by decide))

end Micro8080.Computer
