import Micro8080.Machine.HalfTick
import Micro8080.Proofs.Control.Decision

/-! # Half-ticks under a lawful word

Every edge and every settling phase of every part succeeds when the control word is lawful, but for
the decimal adjustment at a rising edge.  `tock_eq` and `tick_eq` put the parts together: they give
the whole machine after a half-tick from what each part does on its own, so that no later proof
unfolds a half-tick again.
-/

namespace Micro8080

/-! ## The arithmetic unit -/

namespace Alu

open ControlWord

theorem selected_eq {w : ControlWord} (h : w.Lawful) (execute : w.execute = true) :
    ∃ op : Operation, selected w = .ok op ∧ w.opCode = op.code := by
  obtain ⟨op, code⟩ := h.operation execute
  refine ⟨op, ?_, code⟩
  simp only [selected, code, Operation.ofCode?_code]

theorem fall_ok {w : ControlWord} (h : w.Lawful) (a : Alu) (bus : UInt16) :
    ∃ b, a.fall w bus = .ok b := by
  simp only [fall]
  split
  · exact ⟨_, rfl⟩
  · split
    · next execute =>
      obtain ⟨op, select, -⟩ := selected_eq h execute
      rw [select]
      exact ⟨_, rfl⟩
    · exact ⟨_, rfl⟩

theorem execute_ok {op : Operation} (h : op ≠ .daa) (a : Alu) : ∃ b, a.execute op = .ok b := by
  cases op <;> first | exact ⟨_, rfl⟩ | exact absurd rfl h

theorem adjusts_iff {w : ControlWord} {op : Operation} (code : w.opCode = op.code) :
    w.adjusts = true ↔ w.execute = true ∧ op = .daa := by
  simp only [adjusts, code, Bool.and_eq_true]
  cases op <;> simp [Operation.code]

theorem rise_ok {w : ControlWord} (h : w.Lawful) (supported : w.adjusts = false) (a : Alu)
    (bus : UInt16) : ∃ b, a.rise w bus = (b, none) := by
  have one : ¬ w.accWriters > 1 := by have := h.accWriters; omega
  have operated : ∃ b, (a.capture w bus).operate w bus = .ok b := by
    simp only [operate]
    split
    · exact ⟨_, rfl⟩
    · split
      · exact ⟨_, rfl⟩
      · split
        · next execute =>
          obtain ⟨op, select, code⟩ := selected_eq h execute
          have ne : op ≠ .daa := by
            rintro rfl
            rw [(adjusts_iff code).2 ⟨execute, rfl⟩] at supported
            cases supported
          rw [select]
          exact execute_ok ne _
        · exact ⟨_, rfl⟩
  obtain ⟨b, hb⟩ := operated
  exact ⟨b, by simp only [rise, if_neg one, hb]⟩

theorem rise_adjusts {w : ControlWord} (h : w.Lawful) (adj : w.adjusts = true) (a : Alu)
    (bus : UInt16) : ∃ b, a.rise w bus = (b, some (.unsupportedOperation .daa)) := by
  simp only [adjusts, Bool.and_eq_true, beq_iff_eq] at adj
  obtain ⟨execute, code⟩ := adj
  have one : ¬ w.accWriters > 1 := by have := h.accWriters; omega
  obtain ⟨noLoad, noRestore⟩ := h.alone_of_execute execute
  refine ⟨a.capture w bus, ?_⟩
  have refused : (a.capture w bus).operate w bus = .error (.unsupportedOperation .daa) := by
    simp only [operate, noLoad, noRestore, execute, selected, code, Operation.ofCode?_code]
    rfl
  simp only [rise, if_neg one, refused]

end Alu

/-! ## The other parts -/

namespace RegisterFile

theorem read_eq {r : RegisterFile} {s : Selector} (h : s.last < 12) :
    r.read s = .ok (r.value s h) := by
  simp only [read, dif_pos h]

theorem settle_ok {w : ControlWord} (h : w.Lawful) (r : RegisterFile) :
    ∃ s, r.settle w = .ok s := by
  simp only [settle, read_eq (Selector.last_lt_of_named h.read_named)]
  exact ⟨_, rfl⟩

theorem rise_ok {w : ControlWord} (h : w.Lawful) (r : RegisterFile) (bus : UInt16) :
    ∃ s, r.rise w bus = .ok s := by
  have last := Selector.last_lt_of_named h.write_named
  simp only [rise]
  split
  · split
    · simp only [write, dif_pos last]
      exact ⟨_, rfl⟩
    · exact ⟨_, rfl⟩
  · next counts =>
    simp only [count, h.count_pair counts, dif_pos last]
    exact ⟨_, rfl⟩

end RegisterFile

theorem Memory.rise_ok {w : ControlWord} (h : w.Lawful) (m : Memory) (bus : UInt16) :
    ∃ n, m.rise w bus = .ok n := by
  have one := h.memory
  simp only [rise]
  cases address : w.loadAddress <;> cases write : w.writeMemory
  · exact ⟨_, rfl⟩
  · exact ⟨_, rfl⟩
  · exact ⟨_, rfl⟩
  · exact absurd ⟨address, write⟩ one

theorem Bus.settle_ok {w : ControlWord} (h : w.Lawful) (s : Bus.Sources) :
    ∃ v, Bus.settle w s = .ok v := by
  have one : ¬ w.drivers > 1 := by have := h.drivers; omega
  simp only [settle, if_neg one]
  repeat' split
  all_goals exact ⟨_, rfl⟩

/-! ## The whole machine -/

namespace Machine

variable {m : Machine}

/-- The machine after a tock that makes a decision, given what its parts do. -/
theorem tock_eq {alu : Alu} {d : Microcode.Decision} {registers : RegisterFile} {bus : UInt16}
    (fall : m.alu.fall m.sequencer.word m.bus = .ok alu)
    (decide : m.sequencer.fall.decision m.opcode { m with alu }.probe = .ok d)
    (drive : m.registers.settle d.word = .ok registers)
    (settle : Bus.settle d.word
      { acc := alu.acc, memory := m.memory.read m.memory.address, register := registers.out,
        flags := alu.flags.toByte } = .ok bus) :
    m.tock =
      { machine :=
          { m with
            sequencer := (m.sequencer.fall.adopt m.opcode (.ok d)).takeCall.2
            registers, alu := alu.settle, memory := m.memory.settle, bus }
        events := { m with alu }.announce d.halt (d.call <|> m.sequencer.pendingCall) } := by
  -- the sequencer's fall touches neither the word nor what the probe reads
  have fall' : m.alu.fall m.sequencer.fall.word m.bus = .ok alu := fall
  have decide' : m.sequencer.fall.decision m.opcode
      { m with sequencer := m.sequencer.fall, alu }.probe = .ok d := decide
  simp only [tock, fall', decide']
  simp only [Machine.settle, Sequencer.adopt, Sequencer.takeCall, drive, busSources, Alu.settle,
    Memory.settle, settle]
  rfl

theorem tick_eq {registers : RegisterFile} {memory : Memory} {alu : Alu}
    (latch : m.registers.rise m.sequencer.word m.bus = .ok registers)
    (store : m.memory.rise m.sequencer.word m.bus = .ok memory)
    (operate : m.alu.rise m.sequencer.word m.bus = (alu, none)) :
    m.tick =
      { machine :=
          { m with
            registers, memory, alu
            opcode := if m.sequencer.word.loadInstruction then Word.low m.bus else m.opcode
            out := if m.sequencer.word.outputs then alu.out else m.out }
        events := (if m.sequencer.word.loadInstruction then [.fetched m.pc memory] else []) ++
          (if m.sequencer.word.outputs then [.output alu.out] else []) } := by
  simp only [tick, latch, store, operate]
  cases m.sequencer.word.outputs <;> simp

/-- A tick that the arithmetic unit refuses leaves the clock, the sequencer and the fault alone. -/
theorem tick_eq_of_fault {registers : RegisterFile} {memory : Memory} {alu : Alu} {f : Fault}
    (latch : m.registers.rise m.sequencer.word m.bus = .ok registers)
    (store : m.memory.rise m.sequencer.word m.bus = .ok memory)
    (operate : m.alu.rise m.sequencer.word m.bus = (alu, some f)) :
    m.tick =
      { machine :=
          { m with
            registers, memory, alu
            opcode := if m.sequencer.word.loadInstruction then Word.low m.bus else m.opcode }
        fault := some f } := by
  simp only [tick, latch, store, operate]

theorem halfTick_of_ok (running : m.fault = none) (line : m.resetPending = false)
    (ok : m.phaseMoment.fault = none) :
    m.halfTick =
      { machine := { m.phaseMoment.machine with clock := m.phaseMoment.machine.clock.advance }
        events := m.phaseMoment.events ++ [.completed m.phaseMoment.machine] } := by
  simp only [halfTick, running, line, Bool.false_eq_true, if_false, ok]

end Machine

end Micro8080
