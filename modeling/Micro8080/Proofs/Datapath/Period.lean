import Micro8080.Proofs.Datapath.Basic
import Micro8080.Proofs.Machine.TwoPhase

/-! # One period on the datapath

A tock and the tick after it do to a machine what their word does to its datapath (`period`).  The
tock settles what the word reads, the tick latches what it writes, and the flags that the tick
leaves pending are those that the datapath shows already.
-/

namespace Micro8080

theorem Clock.phase_advance_advance (c : Clock) : c.advance.advance.phase = c.phase := by
  have same : (c.halfTicks + 1 + 1) % 2 = c.halfTicks % 2 := by omega
  simp only [phase, advance, same]

namespace Alu

/-- The unit without its output latches, which no edge looks at. -/
def core (a : Alu) : Alu := { a with out := 0, flagsOut := {} }

theorem execute_core (a : Alu) (op : Operation) : a.core.execute op = (a.execute op).map core := by
  cases op <;> rfl

theorem operate_core (a : Alu) (w : ControlWord) (bus : UInt16) :
    a.core.operate w bus = (a.operate w bus).map core := by
  simp only [operate]
  split
  · rfl
  · split
    · rfl
    · split
      · cases selected w with
        | ok op => exact execute_core a op
        | error f => rfl
      · rfl

theorem rise_core (a : Alu) (w : ControlWord) (bus : UInt16) :
    a.core.rise w bus = ((a.rise w bus).1.core, (a.rise w bus).2) := by
  have captured : a.core.capture w bus = (a.capture w bus).core := rfl
  simp only [rise, captured, operate_core]
  split
  · rfl
  · cases (a.capture w bus).operate w bus <;> rfl

theorem fall_core (a : Alu) (w : ControlWord) (bus : UInt16) :
    a.core.fall w bus = (a.fall w bus).map core := by
  simp only [fall]
  split
  · rfl
  · split
    · cases selected w <;> rfl
    · rfl

end Alu

theorem RegisterFile.store_out (r : RegisterFile) (s : Selector) (h : s.last < 12) (u v : UInt16) :
    ({ r with out := u }.store s h v).cells = (r.store s h v).cells := by
  simp only [store]
  split <;> rfl

namespace Machine

variable {m : Machine}

/-- The datapath of a machine, its pending flags committed. -/
def datapath (m : Machine) : Datapath where
  toProgramState := m.programState
  w := Word.high m.registers.wz
  z := Word.low m.registers.wz
  opcode := m.opcode
  address := m.memory.address
  stored := m.alu.stored
  operand := m.alu.operand
  carry := m.alu.carry

theorem committedFlags_eq {alu : Alu} (fall : m.alu.fall m.sequencer.word m.bus = .ok alu) :
    m.committedFlags = alu.flags := by
  simp only [committedFlags, fall]

theorem datapath_alu {alu : Alu} (fall : m.alu.fall m.sequencer.word m.bus = .ok alu) :
    m.datapath.alu = alu.core := by
  have frame := Alu.fall_frame fall
  rw [frame]
  simp only [Datapath.alu, datapath, programState, committedFlags_eq fall, Alu.core]

/-! ## Registers -/

theorem datapath_get {s : Selector} (named : s ∈ Selector.named) (h : s.last < 12) :
    m.registers.value s h = m.datapath.get s := by
  simp only [Selector.named, List.mem_cons, List.not_mem_nil, or_false] at named
  rcases named with rfl | rfl | rfl | rfl | rfl | rfl | rfl | rfl | rfl | rfl | rfl | rfl | rfl |
    rfl | rfl | rfl | rfl | rfl
  all_goals
    simp [RegisterFile.value, datapath, programState, RegisterFile.b, RegisterFile.c,
      RegisterFile.d, RegisterFile.e, RegisterFile.h, RegisterFile.l, RegisterFile.wz,
      RegisterFile.pc, RegisterFile.sp, ProgramState.bc, ProgramState.de, ProgramState.hl,
      Datapath.get, Selector.b, Selector.c, Selector.d, Selector.e, Selector.h, Selector.l,
      Selector.w, Selector.z, Selector.pcHigh, Selector.pcLow, Selector.spHigh, Selector.spLow,
      Selector.bc, Selector.de, Selector.hl, Selector.wz, Selector.pc, Selector.sp]

theorem datapath_store {s : Selector} (named : s ∈ Selector.named) (h : s.last < 12) (v : UInt16)
    {r : RegisterFile} (cells : r.cells = (m.registers.store s h v).cells) :
    { m with registers := r }.datapath = m.datapath.set s v := by
  have flags : { m with registers := r }.committedFlags = m.committedFlags := rfl
  simp only [Selector.named, List.mem_cons, List.not_mem_nil, or_false] at named
  rcases named with rfl | rfl | rfl | rfl | rfl | rfl | rfl | rfl | rfl | rfl | rfl | rfl | rfl |
    rfl | rfl | rfl | rfl | rfl
  all_goals
    simp [datapath, programState, flags, Datapath.set, RegisterFile.b, RegisterFile.c,
      RegisterFile.d, RegisterFile.e, RegisterFile.h, RegisterFile.l, RegisterFile.wz,
      RegisterFile.pc, RegisterFile.sp, cells, RegisterFile.store, Selector.b, Selector.c,
      Selector.d, Selector.e, Selector.h, Selector.l, Selector.w, Selector.z, Selector.pcHigh,
      Selector.pcLow, Selector.spHigh, Selector.spLow, Selector.bc, Selector.de, Selector.hl,
      Selector.wz, Selector.pc, Selector.sp]

/-! ## The parts in one period -/

section Parts

variable {w : ControlWord} {alu : Alu} {driven registers : RegisterFile} {bus : UInt16}

theorem driven_eq (lawful : w.Lawful) (drive : m.registers.settle w = .ok driven) :
    driven = { m.registers with out := m.datapath.get w.read } := by
  have last := Selector.last_lt_of_named lawful.read_named
  simp only [RegisterFile.settle, RegisterFile.read_eq last,
    datapath_get lawful.read_named] at drive
  cases drive
  rfl

theorem bus_eq (lawful : w.Lawful) (fall : m.alu.fall m.sequencer.word m.bus = .ok alu)
    (drive : m.registers.settle w = .ok driven)
    (settle : Bus.settle w
      { acc := alu.acc, memory := m.memory.read m.memory.address, register := driven.out,
        flags := alu.flags.toByte } = .ok bus) :
    bus = m.datapath.bus w := by
  have one : ¬ w.drivers > 1 := by have := lawful.drivers; omega
  have acc : alu.acc = m.alu.acc := by rw [Alu.fall_frame fall]
  simp only [Bus.settle, if_neg one, driven_eq lawful drive, acc,
    ← committedFlags_eq fall] at settle
  simp only [Datapath.bus]
  split at settle
  · next driveAcc =>
    cases settle
    rw [if_pos driveAcc]
    rfl
  · next noAcc =>
    rw [if_neg noAcc]
    split at settle
    · next driveMemory =>
      cases settle
      rw [if_pos driveMemory]
      rfl
    · next noMemory =>
      rw [if_neg noMemory]
      split at settle
      · next driveRegister =>
        cases settle
        rw [if_pos driveRegister]
      · next noRegister =>
        rw [if_neg noRegister]
        split at settle
        · next driveFlags =>
          cases settle
          rw [if_pos driveFlags]
          rfl
        · next noFlags =>
          cases settle
          rw [if_neg noFlags]

theorem latch_eq (lawful : w.Lawful) (drive : m.registers.settle w = .ok driven)
    (latch : driven.rise w (m.datapath.bus w) = .ok registers) :
    { m with registers }.datapath = m.datapath.latch w := by
  have last := Selector.last_lt_of_named lawful.write_named
  -- the output latch that the tock drove is not among the cells
  rw [driven_eq lawful drive] at latch
  simp only [RegisterFile.rise, RegisterFile.write, RegisterFile.count, dif_pos last] at latch
  simp only [Datapath.latch]
  split at latch
  · next loads =>
    rw [if_pos loads]
    split at latch
    · next load =>
      rw [if_pos load]
      cases latch
      refine datapath_store lawful.write_named last _ ?_
      split <;> exact RegisterFile.store_out _ _ _ _ _
    · next none =>
      rw [if_neg none]
      cases latch
      rfl
  · next counts =>
    rw [if_neg counts]
    simp only [lawful.count_pair counts] at latch
    cases latch
    refine datapath_store lawful.write_named last _ ?_
    rw [← datapath_get lawful.write_named last]
    exact RegisterFile.store_out _ _ _ _ _

theorem memory_eq {memory : Memory} (store : m.memory.settle.rise w bus = .ok memory) :
    memory.bytes =
        (if w.writeMemory then Ram.write m.memory.bytes m.memory.address (Word.low bus)
          else m.memory.bytes) ∧
      memory.address = if w.loadAddress then bus else m.memory.address := by
  simp only [Memory.rise] at store
  cases address : w.loadAddress <;> cases write : w.writeMemory <;>
    simp only [address, write] at store <;> cases store <;> exact ⟨rfl, rfl⟩

/-- The unit operates, and its flags are committed by the next falling edge. -/
theorem operated_eq (fall : m.alu.fall m.sequencer.word m.bus = .ok alu) {risen fallen : Alu}
    (operate : alu.settle.rise w (m.datapath.bus w) = (risen, none))
    (commit : risen.fall w (m.datapath.bus w) = .ok fallen) :
    m.datapath.operated w = fallen.core := by
  have rise := Alu.rise_core alu.settle w (m.datapath.bus w)
  rw [operate] at rise
  have same : alu.settle.core = alu.core := rfl
  have committed := Alu.fall_core risen w (m.datapath.bus w)
  rw [commit] at committed
  rw [same, ← datapath_alu fall] at rise
  simp only [Datapath.operated, rise, committed]
  rfl

/-- The datapath after a word, from what the parts hold then. -/
theorem obey_eq {n : Machine} {fallen : Alu}
    (latched : { m with registers := n.registers }.datapath = m.datapath.latch w)
    (bytes : n.memory.bytes =
      if w.writeMemory then Ram.write m.memory.bytes m.memory.address (Word.low (m.datapath.bus w))
      else m.memory.bytes)
    (address : n.memory.address =
      if w.loadAddress then m.datapath.bus w else m.memory.address)
    (commit : n.alu.fall n.sequencer.word n.bus = .ok fallen)
    (operated : m.datapath.operated w = fallen.core)
    (opcode : n.opcode =
      if w.loadInstruction then Word.low (m.datapath.bus w) else m.opcode)
    (out : n.out = if w.outputs then m.alu.acc else m.out) :
    n.datapath = m.datapath.obey w := by
  have frame : n.datapath =
      { { m with registers := n.registers }.datapath with
        acc := n.alu.acc
        flags := n.committedFlags
        stored := n.alu.stored
        operand := n.alu.operand
        carry := n.alu.carry
        memory := n.memory.bytes
        address := n.memory.address
        opcode := n.opcode
        out := n.out } := rfl
  rw [frame, latched, Datapath.obey, operated, committedFlags_eq commit, Alu.fall_frame commit,
    bytes, address, opcode, out]
  rfl

end Parts

/-! ## The whole period -/

/-- No fault stopped the machine, its reset line is down, and a tock comes next. -/
structure Live (m : Machine) : Prop where
  running : m.fault = none
  line : m.resetPending = false
  phase : m.clock.phase = .tock
  sequencer : m.sequencer.Coherent m.opcode

/-- The machine `n` is `m` after a period with the decision `d`. -/
structure Obeyed (m : Machine) (d : Microcode.Decision) (n : Machine) : Prop where
  live : n.Live
  datapath : n.datapath = m.datapath.obey d.word
  sequencer : n.sequencer = (m.sequencer.fall.adopt m.opcode (.ok d)).takeCall.2
  /-- The controller saw the flags that were committed when the period began. -/
  shown : n.alu.flagsOut = m.committedFlags
  clock : n.clock.halfTicks = m.clock.halfTicks + 2

theorem probe_eq {alu : Alu} (fall : m.alu.fall m.sequencer.word m.bus = .ok alu) :
    { m with alu }.probe = m.probe := by
  rw [Alu.fall_frame fall]
  rfl

/-- The tock of a period decides, and drives what was decided. -/
theorem Live.tock (h : m.Live) {d : Microcode.Decision}
    (decide : m.sequencer.fall.decision m.opcode m.probe = .ok d) :
    ∃ alu driven,
      m.alu.fall m.sequencer.word m.bus = .ok alu ∧ m.registers.settle d.word = .ok driven ∧
      m.halfTick.fault = none ∧
      m.halfTick.machine =
        { m with
          clock := m.clock.advance
          sequencer := (m.sequencer.fall.adopt m.opcode (.ok d)).takeCall.2
          registers := driven, alu := alu.settle, memory := m.memory.settle
          bus := m.datapath.bus d.word } := by
  obtain ⟨alu, e, driven, bus, fall, decided, drive, settle⟩ := exists_tock h.sequencer
  rw [probe_eq fall, decide] at decided
  cases decided
  have lawful : d.word.Lawful := (Sequencer.Coherent.of_adopt decide).lawful
  have tock := tock_eq fall ((probe_eq fall).symm ▸ decide) drive settle
  rw [bus_eq lawful fall drive settle] at tock
  have moment : m.phaseMoment = m.tock := by rw [phaseMoment, h.phase]
  have halfTick := halfTick_of_ok h.running h.line (by rw [moment, tock])
  rw [moment, tock] at halfTick
  exact ⟨alu, driven, fall, drive, by rw [halfTick], by rw [halfTick]⟩

theorem Live.tocked (h : m.Live) {n : Machine} {s : Sequencer} {r : RegisterFile} {a : Alu}
    {k : Memory} {v : UInt16}
    (tocked : n =
      { m with
        clock := m.clock.advance, sequencer := s, registers := r, alu := a, memory := k
        bus := v }) :
    n.fault = none ∧ n.resetPending = false ∧ n.phaseMoment = n.tick := by
  subst tocked
  refine ⟨h.running, h.line, ?_⟩
  have flips := m.clock.phase_advance
  rw [h.phase] at flips
  simp only [phaseMoment]
  cases next : m.clock.advance.phase with
  | tick => rfl
  | tock => exact absurd next flips

/-- The tick of a period latches, and leaves flags pending that the datapath shows already. -/
theorem Live.tick (h : m.Live) {d : Microcode.Decision} {alu : Alu} {driven : RegisterFile}
    {n : Machine} (decide : m.sequencer.fall.decision m.opcode m.probe = .ok d)
    (supported : d.word.adjusts = false) (fall : m.alu.fall m.sequencer.word m.bus = .ok alu)
    (drive : m.registers.settle d.word = .ok driven)
    (tocked : n =
      { m with
        clock := m.clock.advance
        sequencer := (m.sequencer.fall.adopt m.opcode (.ok d)).takeCall.2
        registers := driven, alu := alu.settle, memory := m.memory.settle
        bus := m.datapath.bus d.word }) :
    n.halfTick.fault = none ∧ Obeyed m d n.halfTick.machine := by
  have coherent := Sequencer.Coherent.of_adopt decide
  have lawful : d.word.Lawful := coherent.lawful
  obtain ⟨registers, latch⟩ := RegisterFile.rise_ok lawful driven (m.datapath.bus d.word)
  obtain ⟨memory, store⟩ := Memory.rise_ok lawful m.memory.settle (m.datapath.bus d.word)
  obtain ⟨risen, operate⟩ := Alu.rise_ok lawful supported alu.settle (m.datapath.bus d.word)
  -- this edge is still to come: it stands for what the datapath shows already
  obtain ⟨fallen, commit⟩ := Alu.fall_ok lawful risen (m.datapath.bus d.word)
  have word : n.sequencer.word = d.word := by rw [tocked]; rfl
  have bus : n.bus = m.datapath.bus d.word := by rw [tocked]
  have latches : n.registers.rise n.sequencer.word n.bus = .ok registers := by
    rw [word, bus, tocked]
    exact latch
  have stores : n.memory.rise n.sequencer.word n.bus = .ok memory := by
    rw [word, bus, tocked]
    exact store
  have operates : n.alu.rise n.sequencer.word n.bus = (risen, none) := by
    rw [word, bus, tocked]
    exact operate
  have tick := tick_eq latches stores operates
  obtain ⟨running, line, moment⟩ := h.tocked tocked
  have halfTick := halfTick_of_ok running line (by rw [moment, tick])
  have sequenced : n.sequencer.Coherent n.tick.machine.opcode :=
    (tick_coherent (by rw [tocked]; exact coherent)).2.2.1
  rw [tick, tocked] at sequenced
  rw [moment, tick, tocked] at halfTick
  rw [tocked, halfTick]
  have rises := Alu.latches_rise operate
  have acc : alu.acc = m.alu.acc := by rw [Alu.fall_frame fall]
  refine ⟨rfl, ⟨h.running, h.line, ?_, sequenced⟩, ?_, rfl, ?_, rfl⟩
  · rw [← h.phase]
    exact m.clock.phase_advance_advance
  · obtain ⟨bytes, address⟩ := memory_eq store
    refine obey_eq (latch_eq lawful drive latch) bytes address commit
      (operated_eq fall operate commit) rfl ?_
    have shown : risen.out = m.alu.acc := rises.out.trans acc
    rw [shown]
    rfl
  · rw [committedFlags_eq fall]
    exact rises.flagsOut

/-- A period does to the datapath what its word does. -/
theorem Live.obeyed (h : m.Live) {d : Microcode.Decision}
    (decide : m.sequencer.fall.decision m.opcode m.probe = .ok d)
    (supported : d.word.adjusts = false) : m.pair.fault = none ∧ Obeyed m d m.pair.machine := by
  obtain ⟨alu, driven, fall, drive, ok, tocked⟩ := h.tock decide
  obtain ⟨fault, obeyed⟩ := h.tick decide supported fall drive tocked
  rw [pair, Moment.andThen_of_ok ok]
  exact ⟨fault, obeyed⟩

theorem Live.refused (h : m.Live) {d : Microcode.Decision}
    (decide : m.sequencer.fall.decision m.opcode m.probe = .ok d)
    (adj : d.word.adjusts = true) : m.pair.fault = some (.unsupportedOperation .daa) := by
  obtain ⟨alu, driven, fall, drive, ok, tocked⟩ := h.tock decide
  rw [pair, Moment.andThen_of_ok ok]
  generalize m.halfTick.machine = n at tocked
  obtain ⟨running, line, moment⟩ := h.tocked tocked
  have coherent : n.sequencer.Coherent n.opcode := by
    rw [tocked]
    exact .of_adopt decide
  have word : n.sequencer.word.adjusts = true := by
    rw [tocked]
    exact adj
  have refuses := (tick_coherent coherent).1
  rw [if_pos word] at refuses
  simp only [halfTick, running, line, Bool.false_eq_true, if_false, moment, refuses]

end Machine

end Micro8080
