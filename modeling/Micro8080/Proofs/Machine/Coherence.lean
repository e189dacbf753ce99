import Micro8080.Proofs.Machine.HalfTick

/-! # Coherence

The invariant behind the absence of faults.  The sequencer always holds the word that was decided
for its present stage and for the opcode in the instruction register (`Sequencer.Coherent`), so the
next stage has a decision, the word is lawful, and no part refuses it but for the decimal
adjustment.
`Machine.Coherent` adds that the decimal adjustment is never got past: it is only ever seen between
a tock and the tick that fails.

The opcode changes under the sequencer at stage 1.  No harm is done, since the decisions of the
fetch stages do not look at it.
-/

namespace Micro8080

/-! ## The sequencer -/

namespace Sequencer

variable {s : Sequencer} {opcode : UInt8}

theorem decision_of_fetch (h : s.stage < 3) (opcode : UInt8) (p : Microcode.Probe) :
    ∃ word, Microcode.fetch[s.stage]? = some word ∧
      s.decision opcode p = .ok { word, last := false, lastStage := s.lastStage } := by
  have at_fetch : Microcode.fetch[s.stage]? = some Microcode.fetch[s.stage] :=
    List.getElem?_eq_getElem h
  refine ⟨_, at_fetch, ?_⟩
  simp only [decision, at_fetch]

theorem decision_of_own (h : 3 ≤ s.stage) (opcode : UInt8) (p : Microcode.Probe) :
    s.decision opcode p = Microcode.decision opcode s.stage p := by
  have past : Microcode.fetch[s.stage]? = none := List.getElem?_eq_none h
  simp only [decision, past]

/-- The sequencer holds what was decided for its stage, or nothing was decided since power-on, and
no request is left for the host to take. -/
inductive Coherent (s : Sequencer) (opcode : UInt8) : Prop where
  | powerOn (stage : s.stage = 0) (word : s.word = .idle) (atLast : s.atLast = true)
      (taken : s.pendingCall = none)
  | decided {p : Microcode.Probe} {d : Microcode.Decision} (decide : s.decision opcode p = .ok d)
      (word : s.word = d.word) (atLast : s.atLast = d.last) (taken : s.pendingCall = none)

theorem coherent_powerOn (opcode : UInt8) : ({} : Sequencer).Coherent opcode :=
  .powerOn rfl rfl rfl rfl

theorem Coherent.clearSkippedCall (h : s.Coherent opcode) :
    s.clearSkippedCall.Coherent opcode := by
  cases h with
  | powerOn stage word atLast taken => exact .powerOn stage word atLast taken
  | decided decide word atLast taken => exact .decided decide word atLast taken

theorem Coherent.taken (h : s.Coherent opcode) : s.pendingCall = none := by
  cases h with
  | powerOn _ _ _ taken => exact taken
  | decided _ _ _ taken => exact taken

/-- The host takes the request of the decision, since there is no other. -/
theorem Coherent.takeCall_adopt (h : s.Coherent opcode) (d : Microcode.Decision) :
    (s.fall.adopt opcode (.ok d)).takeCall.1 = d.call := by
  have none : s.fall.pendingCall = none := h.taken
  simp only [takeCall, adopt, none]
  cases d.call <;> rfl

theorem Coherent.word_cases (h : s.Coherent opcode) :
    (s.stage < 3 ∧ (s.word = .idle ∨ Microcode.fetch[s.stage]? = some s.word)) ∨
    (3 ≤ s.stage ∧ ∃ p d, Microcode.decision opcode s.stage p = .ok d ∧ s.word = d.word ∧
      s.atLast = d.last) := by
  cases h with
  | powerOn stage word atLast => exact .inl ⟨by omega, .inl word⟩
  | @decided p d decide word atLast =>
    rcases Nat.lt_or_ge s.stage 3 with fetching | own
    · obtain ⟨v, at_fetch, e⟩ := decision_of_fetch fetching opcode p
      rw [e] at decide
      cases decide
      exact .inl ⟨fetching, .inr (word ▸ at_fetch)⟩
    · rw [decision_of_own own] at decide
      exact .inr ⟨own, p, d, decide, word, atLast⟩

theorem Coherent.lawful (h : s.Coherent opcode) : s.word.Lawful := by
  rcases h.word_cases with ⟨-, idle | fetching⟩ | ⟨-, p, d, decide, word, -⟩
  · rw [idle]
    exact ControlWord.lawful_idle
  · exact Microcode.fetch_lawful _ (List.mem_of_getElem? fetching)
  · rw [word]
    exact (Microcode.decision_lawful decide).1

theorem Coherent.adjusts_iff (h : s.Coherent opcode) :
    s.word.adjusts = true ↔ opcode = 0x27 ∧ s.stage = 3 := by
  rcases h.word_cases with ⟨fetching, e⟩ | ⟨own, p, d, decide, word, -⟩
  · have none : s.word.adjusts = false := by
      rcases e with idle | at_fetch
      · rw [idle]
        rfl
      · have all : ∀ w ∈ Microcode.fetch, w.adjusts = false := by decide
        exact all _ (List.mem_of_getElem? at_fetch)
    rw [none]
    constructor
    · intro impossible
      cases impossible
    · rintro ⟨-, at3⟩
      omega
  · rw [word]
    exact Microcode.decision_adjusts_iff decide own

theorem Coherent.fetching_of_loadInstruction (h : s.Coherent opcode)
    (load : s.word.loadInstruction = true) : s.stage < 3 := by
  rcases h.word_cases with ⟨fetching, -⟩ | ⟨-, p, d, decide, word, -⟩
  · exact fetching
  · rw [word, (Microcode.decision_lawful decide).2] at load
    cases load

theorem Coherent.of_fetching (h : s.Coherent opcode) (fetching : s.stage < 3) (other : UInt8) :
    s.Coherent other := by
  cases h with
  | powerOn stage word atLast taken => exact .powerOn stage word atLast taken
  | @decided p d decide word atLast taken =>
    obtain ⟨v, at_fetch, e⟩ := decision_of_fetch fetching opcode p
    obtain ⟨v', at_fetch', e'⟩ := decision_of_fetch fetching other p
    rw [e] at decide
    cases decide
    rw [at_fetch'] at at_fetch
    cases at_fetch
    exact .decided e' word atLast taken

theorem Coherent.next (h : s.Coherent opcode) (q : Microcode.Probe) :
    ∃ d, s.fall.decision opcode q = .ok d := by
  cases last : s.atLast with
  | true =>
    have start : s.fall.stage < 3 := by simp [fall, last]
    obtain ⟨v, -, e⟩ := decision_of_fetch start opcode q
    exact ⟨_, e⟩
  | false =>
    have stage : s.fall.stage = min 255 (s.stage + 1) := by simp [fall, last]
    rcases h.word_cases with ⟨fetching, -⟩ | ⟨own, p, d, decide, -, atLast⟩
    · rcases Nat.lt_or_ge (s.stage + 1) 3 with still | third
      · obtain ⟨v, -, e⟩ := decision_of_fetch (s := s.fall) (by omega) opcode q
        exact ⟨_, e⟩
      · have at3 : s.fall.stage = 3 := by omega
        rw [decision_of_own (by omega), at3]
        exact Microcode.decision_three opcode q
    · -- the counter of stages saturates, but no microprogram is long enough to see it
      obtain ⟨bound, e, next⟩ := Microcode.decision_succ decide (atLast ▸ last) own q
      have short := Microcode.program_length_le (.decode opcode)
      have succ : s.fall.stage = s.stage + 1 := by
        simp only [Instruction.lastStage] at bound
        omega
      rw [decision_of_own (by omega), succ]
      exact ⟨e, next⟩

theorem Coherent.of_adopt {p : Microcode.Probe} {d : Microcode.Decision}
    (decide : s.decision opcode p = .ok d) :
    (s.adopt opcode (.ok d)).takeCall.2.Coherent opcode := by
  rcases Nat.lt_or_ge s.stage 3 with fetching | own
  · obtain ⟨v, at_fetch, e⟩ := decision_of_fetch fetching opcode p
    rw [e] at decide
    cases decide
    let t :=
      (s.adopt opcode (.ok { word := v, last := false, lastStage := s.lastStage })).takeCall.2
    obtain ⟨v', at_fetch', e'⟩ := decision_of_fetch (s := t) fetching opcode p
    have same : some v = some v' := at_fetch.symm.trans at_fetch'
    cases same
    exact .decided e' rfl rfl rfl
  · have same := decision_of_own (s := (s.adopt opcode (.ok d)).takeCall.2) own opcode p
    rw [decision_of_own own] at decide
    exact .decided (same.trans decide) rfl rfl rfl

end Sequencer

/-! ## The machine -/

namespace Machine

variable {m : Machine}

/-- The invariant of every machine that only ever took half-ticks and resets. -/
structure Coherent (m : Machine) : Prop where
  sequencer : m.sequencer.Coherent m.opcode
  /-- The decimal adjustment is never got past. -/
  refused : m.sequencer.word.adjusts = true → m.clock.phase = .tick
  /-- It is the only fault, and the machine still shows the word that raised it. -/
  fault : ∀ f, m.fault = some f →
    f = .unsupportedOperation .daa ∧ m.sequencer.word.adjusts = true

theorem coherent_new : ({} : Machine).Coherent :=
  ⟨Sequencer.coherent_powerOn _, fun asks => (by cases asks), fun f latched => (by cases latched)⟩

theorem coherent_powerOn (image : Array UInt8) : (powerOn image).1.Coherent := by
  simp only [powerOn_eq]
  split
  · exact ⟨coherent_new.sequencer, coherent_new.refused, coherent_new.fault⟩
  · exact coherent_new

theorem Coherent.pulseReset (h : m.Coherent) : m.pulseReset.Coherent :=
  ⟨h.sequencer, h.refused, h.fault⟩

theorem Coherent.clearSkippedCall (h : m.Coherent) :
    { m with sequencer := m.sequencer.clearSkippedCall }.Coherent :=
  ⟨h.sequencer.clearSkippedCall, h.refused, h.fault⟩

/-- Every part of a coherent machine gets through a tock. -/
theorem exists_tock (h : m.sequencer.Coherent m.opcode) :
    ∃ alu d registers bus,
      m.alu.fall m.sequencer.word m.bus = .ok alu ∧
      m.sequencer.fall.decision m.opcode { m with alu }.probe = .ok d ∧
      m.registers.settle d.word = .ok registers ∧
      Bus.settle d.word
        { acc := alu.acc, memory := m.memory.read m.memory.address, register := registers.out,
          flags := alu.flags.toByte } = .ok bus := by
  obtain ⟨alu, fall⟩ := Alu.fall_ok h.lawful m.alu m.bus
  obtain ⟨d, decide⟩ := h.next { m with alu }.probe
  have lawful : d.word.Lawful := (Sequencer.Coherent.of_adopt decide).lawful
  obtain ⟨registers, drive⟩ := RegisterFile.settle_ok lawful m.registers
  obtain ⟨bus, settle⟩ := Bus.settle_ok lawful
    { acc := alu.acc, memory := m.memory.read m.memory.address, register := registers.out,
      flags := alu.flags.toByte }
  exact ⟨alu, d, registers, bus, fall, decide, drive, settle⟩

theorem tock_coherent (h : m.sequencer.Coherent m.opcode) :
    m.tock.fault = none ∧ m.tock.machine.sequencer.Coherent m.tock.machine.opcode ∧
      m.tock.machine.clock = m.clock ∧ m.tock.machine.fault = m.fault := by
  obtain ⟨alu, d, registers, bus, fall, decide, drive, settle⟩ := exists_tock h
  rw [tock_eq fall decide drive settle]
  exact ⟨rfl, .of_adopt decide, rfl, rfl⟩

/-- A tick keeps the sequencer coherent.  It raises a fault if and only if its word asks for the
decimal adjustment. -/
theorem tick_coherent (h : m.sequencer.Coherent m.opcode) :
    m.tick.fault =
        (if m.sequencer.word.adjusts then some (.unsupportedOperation .daa) else none) ∧
      m.tick.machine.sequencer = m.sequencer ∧
      m.sequencer.Coherent m.tick.machine.opcode ∧
      m.tick.machine.clock = m.clock ∧ m.tick.machine.fault = m.fault := by
  obtain ⟨registers, latch⟩ := RegisterFile.rise_ok h.lawful m.registers m.bus
  obtain ⟨memory, store⟩ := Memory.rise_ok h.lawful m.memory m.bus
  -- the opcode changes in a fetch stage only, where the decision does not depend on it
  have opcode : m.sequencer.Coherent
      (if m.sequencer.word.loadInstruction then Word.low m.bus else m.opcode) := by
    split
    · next load => exact h.of_fetching (h.fetching_of_loadInstruction load) _
    · exact h
  cases adj : m.sequencer.word.adjusts with
  | true =>
    obtain ⟨alu, operate⟩ := Alu.rise_adjusts h.lawful adj m.alu m.bus
    rw [tick_eq_of_fault latch store operate]
    exact ⟨rfl, rfl, opcode, rfl, rfl⟩
  | false =>
    obtain ⟨alu, operate⟩ := Alu.rise_ok h.lawful adj m.alu m.bus
    rw [tick_eq latch store operate]
    exact ⟨rfl, rfl, opcode, rfl, rfl⟩

theorem Coherent.halfTick (h : m.Coherent) : m.halfTick.machine.Coherent := by
  simp only [Machine.halfTick]
  cases latched : m.fault with
  | some f => exact h
  | none =>
    cases pending : m.resetPending with
    | true =>
      refine ⟨Sequencer.coherent_powerOn _, fun impossible => (by cases impossible), ?_⟩
      intro f e
      exact absurd (latched.symm.trans e) (by simp)
    | false =>
      simp only [phaseMoment]
      cases phase : m.clock.phase with
      | tock =>
        obtain ⟨fault, sequencer, clock, same⟩ := tock_coherent h.sequencer
        simp only [fault, Bool.false_eq_true, if_false]
        refine ⟨sequencer, fun _ => ?_, fun f e => ?_⟩
        · have flips := m.clock.phase_advance
          rw [phase] at flips
          simp only [clock]
          cases next : m.clock.advance.phase with
          | tick => rfl
          | tock => exact absurd next flips
        · simp only [same, latched] at e
          cases e
      | tick =>
        obtain ⟨fault, sequencer, coherent, clock, same⟩ := tick_coherent h.sequencer
        cases adj : m.sequencer.word.adjusts with
        | true =>
          -- the fault stops the clock, so that the machine stays before this tick
          simp only [adj, if_true] at fault
          simp only [fault, Bool.false_eq_true, if_false]
          refine ⟨by rw [sequencer]; exact coherent, fun _ => ?_, fun f e => ?_⟩
          · simp only [clock]
            exact phase
          · simp only [Fault.latches, Fault.faultClass] at e
            cases e
            exact ⟨rfl, by rw [sequencer]; exact adj⟩
        | false =>
          simp only [adj, Bool.false_eq_true, if_false] at fault
          simp only [fault, Bool.false_eq_true, if_false]
          refine ⟨by rw [sequencer]; exact coherent, fun asks => ?_, fun f e => ?_⟩
          · simp only [sequencer, adj] at asks
            cases asks
          · simp only [same, latched] at e
            cases e

/-- A coherent machine raises a fault in one case only: in the tick of stage 3, under the opcode
`0x27`. -/
theorem Coherent.halfTick_fault_iff (h : m.Coherent) (running : m.fault = none)
    (line : m.resetPending = false) (f : Fault) :
    m.halfTick.fault = some f ↔
      f = .unsupportedOperation .daa ∧ m.clock.phase = .tick ∧ m.sequencer.stage = 3 ∧
        m.opcode = 0x27 := by
  have asks := h.sequencer.adjusts_iff
  simp only [Machine.halfTick, running, line, Bool.false_eq_true, if_false, phaseMoment]
  cases phase : m.clock.phase with
  | tock =>
    obtain ⟨fault, -⟩ := tock_coherent h.sequencer
    simp [fault]
  | tick =>
    obtain ⟨fault, -⟩ := tick_coherent h.sequencer
    cases adj : m.sequencer.word.adjusts with
    | true =>
      obtain ⟨opcode, stage⟩ := asks.1 adj
      simp only [adj, if_true] at fault
      simp only [fault, opcode, stage, and_true, Option.some.injEq]
      exact eq_comm
    | false =>
      have never : ¬ (m.sequencer.stage = 3 ∧ m.opcode = 0x27) := by
        rintro ⟨stage, opcode⟩
        rw [asks.2 ⟨opcode, stage⟩] at adj
        cases adj
      simp only [adj, Bool.false_eq_true, if_false] at fault
      simp [fault, never]

end Machine

end Micro8080
