import Micro8080.Instruction.Assembly
import Micro8080.Proofs.Computer.Stack
import Micro8080.Proofs.Computer.Timeline
import Micro8080.Proofs.Program.Fetch
import Micro8080.Proofs.Program.Stages

/-! # Rows of a listing and steps

A row of a listing has a length from a table, and the program counter is moved on by the microcode,
a byte at a time.  The two agree for every instruction that does not lead elsewhere
(`ProgramState.pc_of_execute`), and a call pushes the address where its row ends.  What is logged of
a fetch is the row itself, taken from memory as it was before the instruction
(`Machine.LogsFetch`).
-/

namespace Micro8080

theorem Memory.disassemble_congr {m n : Memory} (same : m.bytes = n.bytes) (a : UInt16) :
    m.disassemble a = n.disassemble a := by
  simp only [disassemble, readWord, read, same]

namespace ProgramState

variable (s : ProgramState)

/-- The instruction at the program counter leads elsewhere: a jump or a return that is taken, a call
that is taken and not answered by the host, or a jump to HL. -/
def transfers : Bool :=
  match s.instruction with
  | .jump k | .ret k => s.meets k
  | .call k => s.operandWord != Microcode.systemVector && s.meets k
  | .jumpHl => true
  | _ => false

/-! ## Where the program counter goes -/

theorem pc_setRegister (v : UInt8) (t : Register) : (s.setRegister v t).pc = s.pc := by
  cases t <;> rfl

theorem pc_setPair (v : UInt16) (t : RegisterPair) : (s.setPair v t).pc = s.pc := by
  cases t <;> rfl

theorem pc_operate (x : UInt8) (op : Operation) : (s.operate x op).pc = s.pc := by
  cases op <;> rfl

theorem pc_push (p : StackPair) : (s.push p).pc = s.pc := by
  cases p <;> rfl

theorem pc_pop (p : StackPair) : (s.pop p).pc = s.pc := by
  cases p <;> rfl

variable {s}

/-- An instruction that leads nowhere else is passed over by its length. -/
theorem pc_of_execute (stays : s.transfers = false) :
    (s.execute s.instruction).pc = s.pc + .ofNat s.instruction.byteLength := by
  cases at_pc : s.instruction
  case jump k =>
    have skips : s.meets k = false := by rwa [transfers, at_pc] at stays
    rw [execute, jump, skips]
    rfl
  case ret k =>
    have skips : s.meets k = false := by rwa [transfers, at_pc] at stays
    rw [execute, ret, skips]
    rfl
  case call k =>
    have skips : ¬ (s.operandWord ≠ Microcode.systemVector ∧ s.meets k = true) := by
      rw [transfers, at_pc] at stays
      simpa using stays
    rw [execute, call, if_neg skips]
    rfl
  case jumpHl =>
    rw [transfers, at_pc] at stays
    cases stays
  case direct load => cases load <;> rfl
  case indirect p load => cases load <;> rfl
  case moveFromMemory t => exact congrArg (· + 1) (s.pc_setRegister _ t)
  case move t r => exact congrArg (· + 1) (s.pc_setRegister _ t)
  case moveImmediate t => exact congrArg (· + 2) (s.pc_setRegister _ t)
  case stepRegister t decrement => exact congrArg (· + 1) (s.pc_setRegister _ t)
  case stepPair t decrement => exact congrArg (· + 1) (s.pc_setPair _ t)
  case loadPairImmediate t => exact congrArg (· + 3) (s.pc_setPair _ t)
  case operateMemory op => exact congrArg (· + 1) (s.pc_operate _ op)
  case operateRegister op r => exact congrArg (· + 1) (s.pc_operate _ op)
  case operateImmediate op => exact congrArg (· + 2) (s.pc_operate _ op)
  case operateAccumulator op => exact congrArg (· + 1) (s.pc_operate _ op)
  case push p => exact congrArg (· + 1) (s.pc_push p)
  case pop p => exact congrArg (· + 1) (s.pc_pop p)
  all_goals rfl

theorem byteLength_of_calls (calls : s.calls = true) : s.instruction.byteLength = 3 := by
  obtain ⟨k, at_pc, -⟩ := calls_iff.1 calls
  rw [at_pc]
  rfl

end ProgramState

/-! ## What is logged -/

/-- The log record of the fetch of a row. -/
def Listing.Row.fetchRecord (row : Listing.Row) : Log.Record where
  level := .debug
  source := .machine
  text := s!"fetch {Numeral.hex 4 row.address.toNat}: {row.text}"

theorem record?_fetched (a : UInt16) (k : Memory) (t : Log.Threshold) :
    (Event.fetched a k).record? t =
      if t.admits .debug then some (k.disassemble a).fetchRecord else none := rfl

/-- A step from `m` reports one fetch.  It does so in the tick of stage 1, its fourth half-tick, and
what goes to the log is the record of this row. -/
structure Machine.LogsFetch (m : Machine) (row : Listing.Row) : Prop where
  fourth : ∃ k, m.instruct = (m.marked false).halfTicks (4 + k)
  stage : ((m.marked false).halfTicks 3).machine.sequencer.stage = 1
  phase : ((m.marked false).halfTicks 3).machine.clock.phase = .tick
  report : ∃ e, ((m.marked false).halfTicks 3).machine.halfTick.fetches = [e] ∧
    m.instruct.fetches = [e] ∧
    ∀ t, e.record? t = if t.admits .debug then some row.fetchRecord else none

theorem Machine.Ready.logsFetch {m : Machine} (h : m.Ready)
    (named : m.programState.instruction.operation? ≠ some .daa) :
    m.LogsFetch (m.memory.disassemble m.pc) := by
  have cleared : (m.marked false).Ready := h.clearSkippedCall
  obtain ⟨stage, phase, k, bytes, tick, six⟩ := cleared.fetches_six
  have steps := h.instruct_eq named
  have long := m.programState.halfTicks_ge
  refine ⟨⟨m.programState.halfTicks - 4, ?_⟩, stage, phase, _, tick, ?_, fun t => ?_⟩
  · rw [steps, Nat.add_sub_cancel' (by omega)]
  · rw [steps, ← six]
    exact cleared.fetches_once named
  · rw [record?_fetched, Memory.disassemble_congr bytes]
    rfl

/-! ## Steps -/

namespace Computer

variable {ω : Type} {see : ω → Event → ω} {c c' : Computer} {w w' : ω}

/-- A step that succeeds leaves the opcode of the row at the program counter in its register, and
goes on where the row ends, unless the instruction leads elsewhere.  A call that is taken pushes the
address where its row ends.  The log shows the same row. -/
theorem Boundary.step_row (h : Boundary see c w) (ok : c.step see w = (c', w', .ok ())) :
    let m := c.machine
    let n := c'.machine
    let row := m.memory.disassemble m.pc
    n.opcode = m.memory.read m.pc ∧
    (m.programState.transfers = false → n.pc = m.pc + .ofNat row.length) ∧
    (m.programState.calls = true →
      n.registers.sp = m.registers.sp - 2 ∧
      Word.ofBytes (n.memory.read n.registers.sp) (n.memory.read (n.registers.sp + 1)) =
        m.pc + .ofNat row.length) ∧
    w' = m.instruct.events.foldl see w ∧ m.LogsFetch row := by
  intro m n row
  have named := operation_of_step h.ready ok
  have machine : n = m.instruct.machine := by rw [← machine_step see c w, ok]
  have meaning := h.execute_of_step ok
  have length : row.length = m.programState.instruction.byteLength := rfl
  refine ⟨?_, fun stays => ?_, fun calls => ?_, ?_, h.ready.logsFetch named⟩
  · rw [machine]
    exact h.ready.opcode_instruct named
  · rw [length]
    exact (congrArg ProgramState.pc meaning).trans (ProgramState.pc_of_execute stays)
  · obtain ⟨sp, top⟩ := ProgramState.top_of_calls calls
    rw [length, ProgramState.byteLength_of_calls calls]
    rw [← meaning] at sp top
    exact ⟨sp, top⟩
  · rw [← seen_step, ok]

/-- A call at address zero pushes the address where its row ends. -/
theorem step_row_call :
    let c := ((new {}).reset subroutine).1
    ∃ c', c.step (fun (_ : Unit) _ => ()) () = (c', (), .ok ()) ∧ c'.machine.opcode = 0xCD ∧
      Word.ofBytes (c'.machine.memory.read c'.machine.registers.sp)
        (c'.machine.memory.read (c'.machine.registers.sp + 1)) = 3 ∧
      c.machine.LogsFetch (c.machine.memory.disassemble c.machine.pc) := by
  have first : ((new {}).reset subroutine).1.machine.programState.read 0 = 0xCD :=
    Machine.read_powerOn subroutine_fits 0
  have starts := calls_subroutine (new {})
  have boundary : Boundary (fun (_ : Unit) _ => ()) ((new {}).reset subroutine).1 () :=
    .reset (new {}) subroutine ()
  generalize ((new {}).reset subroutine).1 = c at first starts boundary ⊢
  obtain ⟨pc, -, calls⟩ := starts
  obtain ⟨k, at_pc, -⟩ := ProgramState.calls_iff.1 calls
  obtain ⟨c', w', ok, -⟩ := boundary.steps_of_eq at_pc (by simp [Instruction.operation?])
  obtain ⟨opcode, -, pushes, -, logs⟩ := boundary.step_row ok
  have top := (pushes calls).2
  have length : (c.machine.memory.disassemble c.machine.pc).length = 3 :=
    ProgramState.byteLength_of_calls calls
  have start : c.machine.pc = 0 := pc
  rw [length, start] at top
  rw [start] at opcode
  exact ⟨c', ok, opcode.trans first, top, logs⟩

end Computer

end Micro8080
