import Micro8080.Proofs.Machine.Timeline

/-! # The two phases

A tock decides and settles: every register, every byte of memory and everything that the arithmetic
unit computes with stays as it is, and the bus comes to carry the value that the one part which
drives it has by then (`Machine.Settles`).  A tick latches: the control word, the bus and all that
drives it stay as they are, and each register changes under its own signal only (`Machine.Latches`).

Nothing is asked of the machine here but that the half-tick succeeds, so that the word may be any
word at all: what would make two parts contend makes the half-tick fail.
-/

namespace Micro8080

/-! ## The arithmetic unit -/

namespace Alu

variable {a b : Alu} {w : ControlWord} {bus : UInt16}

theorem fall_frame (h : a.fall w bus = .ok b) : b = { a with flags := b.flags } := by
  simp only [fall] at h
  split at h
  · cases h
    rfl
  · split at h
    · cases select : selected w with
      | ok op =>
        rw [select] at h
        cases h
        rfl
      | error f =>
        rw [select] at h
        cases h
    · cases h
      rfl

/-- What a rising edge from `a` to `b` leaves alone, and the signals that it takes to change the
rest. -/
structure Latches (w : ControlWord) (a b : Alu) : Prop where
  flags : b.flags = a.flags
  out : b.out = a.out
  flagsOut : b.flagsOut = a.flagsOut
  acc : b.acc ≠ a.acc → w.loadAcc = true ∨ w.restoreAcc = true ∨ w.execute = true
  carry : b.carry ≠ a.carry → w.execute = true
  stored : b.stored ≠ a.stored →
    w.saveAcc = true ∨ (w.execute = true ∧ w.opCode = Operation.cmp.code)
  operand : b.operand ≠ a.operand → w.loadOperand = true

theorem latches_capture (w : ControlWord) (a : Alu) (bus : UInt16) :
    Latches w a (a.capture w bus) where
  flags := rfl
  out := rfl
  flagsOut := rfl
  acc changed := absurd rfl changed
  carry changed := absurd rfl changed
  stored changed := by
    cases save : w.saveAcc with
    | true => exact .inl rfl
    | false => exact absurd (by simp [capture, save]) changed
  operand changed := by
    cases load : w.loadOperand with
    | true => rfl
    | false => exact absurd (by simp [capture, load]) changed

/-- An operation works on the accumulator and its carry.  Only a comparison writes the shadow
register as well. -/
theorem execute_frame {op : Operation} (h : a.execute op = .ok b) :
    b = { a with acc := b.acc, carry := b.carry, stored := b.stored } ∧
      (b.stored ≠ a.stored → op = .cmp) := by
  cases op <;> cases h <;> first | exact ⟨rfl, fun _ => rfl⟩ | exact ⟨rfl, fun h => absurd rfl h⟩

theorem code_of_selected {op : Operation} (h : selected w = .ok op) : w.opCode = op.code := by
  simp only [selected] at h
  split at h
  · next named =>
    cases h
    exact BitVec.eq_of_toNat_eq (Operation.code_of_ofCode? named).symm
  · cases h

theorem operate_frame {c : Alu} (h : a.operate w bus = .ok c) :
    c = { a with acc := c.acc, carry := c.carry, stored := c.stored } ∧
      (c.acc ≠ a.acc → w.loadAcc = true ∨ w.restoreAcc = true ∨ w.execute = true) ∧
      (c.carry ≠ a.carry → w.execute = true) ∧
      (c.stored ≠ a.stored → w.execute = true ∧ w.opCode = Operation.cmp.code) := by
  simp only [operate] at h
  split at h
  · next load =>
    cases h
    exact ⟨rfl, fun _ => .inl load, fun changed => absurd rfl changed,
      fun changed => absurd rfl changed⟩
  · split at h
    · next restore =>
      cases h
      exact ⟨rfl, fun _ => .inr (.inl restore), fun changed => absurd rfl changed,
        fun changed => absurd rfl changed⟩
    · split at h
      · next execute =>
        cases select : selected w with
        | error f =>
          rw [select] at h
          cases h
        | ok op =>
          rw [select] at h
          have executed : a.execute op = .ok c := h
          obtain ⟨frame, compares⟩ := execute_frame executed
          refine ⟨frame, fun _ => .inr (.inr execute), fun _ => execute, fun changed => ?_⟩
          rw [code_of_selected select, compares changed]
          exact ⟨execute, rfl⟩
      · cases h
        exact ⟨rfl, fun changed => absurd rfl changed, fun changed => absurd rfl changed,
          fun changed => absurd rfl changed⟩

theorem latches_rise (h : a.rise w bus = (b, none)) : Latches w a b := by
  simp only [rise] at h
  split at h
  · cases h
  · cases operated : (a.capture w bus).operate w bus with
    | error f => simp [operated] at h
    | ok c =>
      simp only [operated] at h
      cases h
      have captured := latches_capture w a bus
      obtain ⟨frame, acc, carry, stored⟩ := operate_frame operated
      rw [frame]
      refine ⟨captured.flags, captured.out, captured.flagsOut, acc, carry, fun changed => ?_,
        captured.operand⟩
      by_cases same : b.stored = (a.capture w bus).stored
      · exact captured.stored (same ▸ changed)
      · exact .inr (stored same)

end Alu

/-! ## Registers and memory -/

/-- The selector names the cell, by itself or as one of a pair. -/
def Selector.Names (s : Selector) (i : Nat) : Prop := s.cell.toNat ≤ i ∧ i ≤ s.last

namespace RegisterFile

variable {r s : RegisterFile} {w : ControlWord} {bus : UInt16}

theorem store_frame (r : RegisterFile) (s : Selector) (h : s.last < 12) (v : UInt16) :
    (r.store s h v).out = r.out ∧
      ∀ i (lt : i < 12), (r.store s h v).cells[i] ≠ r.cells[i] → s.Names i := by
  simp only [store]
  split
  · next pair =>
    have last : s.last = s.cell.toNat + 1 := by simp [Selector.last, pair]
    refine ⟨rfl, fun i lt changed => ?_⟩
    simp only [Vector.getElem_set] at changed
    grind [Selector.Names]
  · next byte =>
    have last : s.last = s.cell.toNat := by simp [Selector.last, byte]
    refine ⟨rfl, fun i lt changed => ?_⟩
    simp only [Vector.getElem_set] at changed
    grind [Selector.Names]

/-- A rising edge changes the cells that the selector to write names, to count or to load them. -/
theorem rise_frame (h : r.rise w bus = .ok s) :
    s.out = r.out ∧ ∀ i (lt : i < 12), s.cells[i] ≠ r.cells[i] →
      (w.count ≠ .none ∨ w.loadRegister = true) ∧ w.write.Names i := by
  simp only [rise] at h
  split at h
  · split at h
    · next load =>
      simp only [write] at h
      split at h
      · next last =>
        obtain ⟨out, cells⟩ := r.store_frame w.write last bus
        cases h
        split
        all_goals exact ⟨out, fun i lt changed => ⟨.inr load, cells i lt changed⟩⟩
      · cases h
    · cases h
      exact ⟨rfl, fun i lt changed => absurd rfl changed⟩
  · next counts =>
    simp only [count] at h
    split at h
    · cases h
    · split at h
      · next last =>
        obtain ⟨out, cells⟩ := r.store_frame w.write last (r.value w.write last + w.count.delta)
        cases h
        exact ⟨out, fun i lt changed => ⟨.inl counts, cells i lt changed⟩⟩
      · cases h

theorem settle_frame (h : r.settle w = .ok s) : s.cells = r.cells ∧ s.read w.read = .ok s.out := by
  simp only [settle] at h
  cases read : r.read w.read with
  | error f =>
    rw [read] at h
    cases h
  | ok v =>
    rw [read] at h
    cases h
    refine ⟨rfl, ?_⟩
    rw [← read]
    rfl

end RegisterFile

theorem Memory.rise_frame {m n : Memory} {w : ControlWord} {bus : UInt16}
    (h : m.rise w bus = .ok n) :
    n.out = m.out ∧ (n.address ≠ m.address → w.loadAddress = true) ∧
      ∀ a, n.read a ≠ m.read a →
        w.writeMemory = true ∧ a.toNat % 2048 = m.address.toNat % 2048 := by
  simp only [rise] at h
  cases load : w.loadAddress <;> cases write : w.writeMemory <;> simp only [load, write] at h <;>
    cases h
  · exact ⟨rfl, fun changed => absurd rfl changed, fun a changed => absurd rfl changed⟩
  · refine ⟨rfl, fun changed => absurd rfl changed, fun a changed => ⟨rfl, ?_⟩⟩
    by_cases same : m.address.toNat % 2048 = a.toNat % 2048
    · exact same.symm
    · exact absurd (by simp [read, Memory.write, same]) changed
  · exact ⟨rfl, fun _ => rfl, fun a changed => absurd rfl changed⟩

/-! ## The bus -/

/-- The value on the bus is what its only driver offers, or zero if it has none. -/
structure Bus.Carries (w : ControlWord) (s : Bus.Sources) (v : UInt16) : Prop where
  one : w.drivers ≤ 1
  acc : w.driveAcc = true → v = s.acc.toUInt16
  memory : w.driveMemory = true → v = s.memory.toUInt16
  register : w.driveRegister = true → v = s.register
  flags : w.driveFlags = true → v = s.flags.toUInt16
  rest : w.drivers = 0 → v = 0

theorem Bus.carries_of_settle {w : ControlWord} {s : Bus.Sources} {v : UInt16}
    (h : Bus.settle w s = .ok v) : Bus.Carries w s v := by
  simp only [settle] at h
  split at h
  · cases h
  · next one =>
    have drivers : w.driveAcc.toNat + w.driveMemory.toNat + w.driveRegister.toNat +
        w.driveFlags.toNat ≤ 1 := Nat.le_of_not_lt one
    refine ⟨Nat.le_of_not_lt one, ?_, ?_, ?_, ?_, ?_⟩ <;>
      cases acc : w.driveAcc <;> cases memory : w.driveMemory <;>
      cases register : w.driveRegister <;> cases flags : w.driveFlags <;>
      simp_all [ControlWord.drivers]

/-! ## The whole machine -/

namespace Machine

variable {m : Machine}

theorem tock_inv (ok : m.tock.fault = none) :
    ∃ alu d registers bus,
      m.alu.fall m.sequencer.word m.bus = .ok alu ∧
      m.sequencer.fall.decision m.opcode { m with alu }.probe = .ok d ∧
      m.registers.settle d.word = .ok registers ∧
      Bus.settle d.word
        { acc := alu.acc, memory := m.memory.read m.memory.address, register := registers.out,
          flags := alu.flags.toByte } = .ok bus := by
  simp only [tock] at ok
  split at ok
  · cases ok
  · next alu fall =>
    split at ok
    · cases ok
    · next d decide =>
      simp only [decide, settle] at ok
      split at ok
      · cases ok
      · next registers drive =>
        split at ok
        · cases ok
        · next bus settle => exact ⟨alu, d, registers, bus, fall, decide, drive, settle⟩

theorem tick_inv (ok : m.tick.fault = none) :
    ∃ registers memory alu,
      m.registers.rise m.sequencer.word m.bus = .ok registers ∧
      m.memory.rise m.sequencer.word m.bus = .ok memory ∧
      m.alu.rise m.sequencer.word m.bus = (alu, none) := by
  simp only [tick] at ok
  split at ok
  · cases ok
  · next registers latch =>
    split at ok
    · cases ok
    · next memory store =>
      split at ok
      · cases ok
      · next alu operate => exact ⟨registers, memory, alu, latch, store, operate⟩

/-- What a tock from `m` to `n` leaves alone, and what it brings to the bus. -/
structure Settles (m n : Machine) : Prop where
  cells : n.registers.cells = m.registers.cells
  bytes : n.memory.bytes = m.memory.bytes
  address : n.memory.address = m.memory.address
  opcode : n.opcode = m.opcode
  acc : n.alu.acc = m.alu.acc
  stored : n.alu.stored = m.alu.stored
  operand : n.alu.operand = m.alu.operand
  carry : n.alu.carry = m.alu.carry
  out : n.out = m.out
  /-- The flags are those that the word of the stage before commits. -/
  flags : m.alu.fall m.sequencer.word m.bus = .ok { m.alu with flags := n.alu.flags }
  /-- The register file offers what the new word reads. -/
  register : n.registers.read n.sequencer.word.read = .ok n.registers.out
  /-- The new word drives the bus, from what the parts hold now. -/
  bus : Bus.Carries n.sequencer.word
    { acc := n.alu.acc, memory := n.memory.read n.memory.address, register := n.registers.out,
      flags := n.alu.flags.toByte } n.bus

/-- What a tick from `m` to `n` leaves alone, and the signals that it takes to change the rest. -/
structure Latches (m n : Machine) : Prop where
  sequencer : n.sequencer = m.sequencer
  bus : n.bus = m.bus
  registerOut : n.registers.out = m.registers.out
  memoryOut : n.memory.out = m.memory.out
  /-- The flags and the output latches of the arithmetic unit are among what stays. -/
  alu : Alu.Latches m.sequencer.word m.alu n.alu
  cells : ∀ i (lt : i < 12), n.registers.cells[i] ≠ m.registers.cells[i] →
    (m.sequencer.word.count ≠ .none ∨ m.sequencer.word.loadRegister = true) ∧
      m.sequencer.word.write.Names i
  bytes : ∀ a, n.memory.read a ≠ m.memory.read a →
    m.sequencer.word.writeMemory = true ∧ a.toNat % 2048 = m.memory.address.toNat % 2048
  address : n.memory.address ≠ m.memory.address → m.sequencer.word.loadAddress = true
  opcode : n.opcode ≠ m.opcode → m.sequencer.word.loadInstruction = true
  out : n.out ≠ m.out → m.sequencer.word.outputs = true

theorem settles_tock (ok : m.tock.fault = none) : m.Settles m.tock.machine := by
  obtain ⟨alu, d, registers, bus, fall, decide, drive, settle⟩ := tock_inv ok
  obtain ⟨cells, offers⟩ := RegisterFile.settle_frame drive
  obtain ⟨flags, rfl⟩ : ∃ flags, alu = { m.alu with flags } := ⟨_, Alu.fall_frame fall⟩
  rw [tock_eq fall decide drive settle]
  exact ⟨cells, rfl, rfl, rfl, rfl, rfl, rfl, rfl, rfl, fall, offers,
    Bus.carries_of_settle settle⟩

theorem latches_tick (ok : m.tick.fault = none) : m.Latches m.tick.machine := by
  obtain ⟨registers, memory, alu, latch, store, operate⟩ := tick_inv ok
  obtain ⟨registerOut, cells⟩ := RegisterFile.rise_frame latch
  obtain ⟨memoryOut, address, bytes⟩ := Memory.rise_frame store
  rw [tick_eq latch store operate]
  refine ⟨rfl, rfl, registerOut, memoryOut, Alu.latches_rise operate, cells, bytes, address,
    fun changed => ?_, fun changed => ?_⟩
  · cases load : m.sequencer.word.loadInstruction with
    | true => rfl
    | false => exact absurd (by simp [load]) changed
  · cases outputs : m.sequencer.word.outputs with
    | true => rfl
    | false => exact absurd (by simp [outputs]) changed

theorem phases_halfTick (line : m.resetPending = false) (ok : m.halfTick.fault = none) :
    (m.clock.phase = .tock → m.Settles m.halfTick.machine) ∧
      (m.clock.phase = .tick → m.Latches m.halfTick.machine) := by
  have fine := fault_phaseMoment line ok
  rw [halfTick_of_phase line ok]
  constructor
  · intro phase
    rw [phaseMoment, phase] at fine ⊢
    have settles := settles_tock fine
    exact { settles with }
  · intro phase
    rw [phaseMoment, phase] at fine ⊢
    have latches := latches_tick fine
    exact { latches with }

end Machine

namespace Computer

variable {ω : Type} (see : ω → Event → ω)

/-- A half-tick that succeeds obeys the protocol of its phase, in whatever state a computer is,
unless the reset line is up. -/
theorem two_phases (c : Computer) (w : ω) (line : c.machine.resetPending = false)
    (ok : (c.halfTick see w).2.2 = .ok ()) :
    let n := (c.halfTick see w).1.machine
    (c.machine.clock.phase = .tock → c.machine.Settles n) ∧
      (c.machine.clock.phase = .tick → c.machine.Latches n) :=
  Machine.phases_halfTick line (c.machine.halfTick.result_eq_ok_iff.1 ok)

/-- The first two half-ticks after a reset settle and latch. -/
theorem two_phases_reset :
    let see : Unit → Event → Unit := fun _ _ => ()
    let c := ((new {}).reset #[0x3C]).1
    let d := (c.halfTick see ()).1
    c.machine.Settles d.machine ∧ d.machine.Latches (d.halfTick see ()).1.machine := by
  intro see c d
  have coherent : c.machine.Coherent := Machine.coherent_powerOn #[0x3C]
  have fine {e : Computer} (coherent : e.machine.Coherent) (running : e.machine.fault = none)
      (line : e.machine.resetPending = false) (stage : e.machine.sequencer.stage = 0) :
      (e.halfTick see ()).2.2 = .ok () := by
    rw [result_halfTick, Moment.result_eq_ok_iff]
    cases raised : e.machine.halfTick.fault with
    | none => rfl
    | some f =>
      have three := ((coherent.halfTick_fault_iff running line f).1 raised).2.2.1
      omega
  constructor
  · exact (two_phases see c () rfl (fine coherent rfl rfl rfl)).1 rfl
  · exact (two_phases see d () rfl (fine coherent.halfTick rfl rfl rfl)).2 rfl

end Computer

end Micro8080
