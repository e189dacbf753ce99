import Micro8080.Proofs.Program.Stack
import Micro8080.Proofs.Program.Timing

/-! # What an instruction leaves behind

A machine keeps no record of its calls and returns.  All that is to be found between two
instructions is the opcode of the last one, the stage that it ended at and the marker of skipped
calls (`Completed`).  They are enough to tell whether a branch was taken: a return that is not taken
ends at stage 3 (`ProgramState.returns_iff_long`), and a call that is not taken leaves the marker
(`ProgramState.calls_iff_not_skipped`).
-/

namespace Micro8080

open Microcode

/-! ## Skipped calls -/

/-- The controller passes over the instruction as a call that is not taken. -/
def Microcode.skipsCall (i : Instruction) (p : Probe) : Bool := (shortcut i p).any Decision.skipsCall

theorem Microcode.decision_skipsCall {opcode : UInt8} {stage : Nat} {p : Probe} {d : Decision}
    (h : decision opcode stage p = .ok d) :
    d.skipsCall = (stage == 3 && skipsCall (.decode opcode) p) := by
  rcases decision_cases h with ⟨reason, halts, rfl⟩ | ⟨-, rfl, short⟩ | ⟨-, long, w, word, rfl⟩
  · simp [skipsCall, (words_of_halting halts p).1, halting]
  · simp [skipsCall, short]
  · by_cases at3 : stage = 3
    · simp [skipsCall, long at3]
    · simp [at3]

theorem Sequencer.decision_skipsCall {s : Sequencer} {opcode : UInt8} {p : Probe} {d : Decision}
    (h : s.decision opcode p = .ok d) :
    d.skipsCall = (s.stage == 3 && skipsCall (.decode opcode) p) := by
  rcases Nat.lt_or_ge s.stage 3 with fetching | own
  · obtain ⟨w, -, e⟩ := decision_of_fetch fetching opcode p
    rw [e] at h
    cases h
    have other : s.stage ≠ 3 := by omega
    simp [other]
  · rw [decision_of_own own] at h
    exact Microcode.decision_skipsCall h

namespace ProgramState

variable {s : ProgramState} {k : Option Condition}

/-- A call is taken unless the controller passes over it. -/
theorem calls_iff_not_skipped (at_pc : s.instruction = .call k) :
    s.calls = true ↔ skipsCall s.instruction s.probe = false := by
  have operand : s.probe.operand = s.operandWord := rfl
  rw [calls_iff, at_pc]
  simp only [skipsCall, shortcut, operand, Datapath.fails_eq]
  by_cases own : s.operandWord = systemVector
  · simp [own]
  · cases taken : s.meets k <;> simp [own, taken]

/-- A return is taken if it goes on after stage 3. -/
theorem returns_iff_long (at_pc : s.instruction = .ret k) :
    s.returns = true ↔ 3 < 2 + (ownWords s.instruction s.probe).length := by
  rw [returns_iff, at_pc]
  simp only [ownWords, shortcut, Datapath.fails_eq]
  cases taken : s.meets k <;> simp [taken, program, popByte]

end ProgramState

namespace Machine

variable {m n : Machine} {d : Decision} {ds : List Decision}

/-! ## Periods -/

theorem Live.next_marker (live : m.Live)
    (decide : m.sequencer.fall.decision m.opcode m.probe = .ok d)
    (supported : d.word.adjusts = false) :
    m.pair.machine.sequencer.skippedCall = (m.sequencer.skippedCall || d.skipsCall) := by
  rw [(live.obeyed decide supported).2.sequencer]
  rfl

theorem Live.next_opcode (live : m.Live)
    (decide : m.sequencer.fall.decision m.opcode m.probe = .ok d)
    (supported : d.word.adjusts = false) (own : 3 ≤ m.sequencer.fall.stage) :
    m.pair.machine.opcode = m.opcode := by
  have loads := congrArg Datapath.opcode (live.obeyed decide supported).2.datapath
  rw [Sequencer.decision_of_own own] at decide
  simp only [Datapath.obey, (decision_lawful decide).2, Bool.false_eq_true, if_false] at loads
  exact loads

theorem skipsCall_eq_false (decide : m.sequencer.fall.decision m.opcode m.probe = .ok d)
    (other : m.sequencer.fall.stage ≠ 3) : d.skipsCall = false := by
  rw [Sequencer.decision_skipsCall decide, beq_false_of_ne other, Bool.false_and]

theorem Passes.marker (h : Passes m ds n) (early : m.sequencer.fall.stage + ds.length ≤ 3) :
    n.sequencer.skippedCall = m.sequencer.skippedCall := by
  induction h with
  | none => rfl
  | @more m n d ds live decide supported more rest ih =>
    rw [List.length_cons] at early
    have next := live.next_stage decide supported more
    rw [ih (by omega), live.next_marker decide supported, skipsCall_eq_false decide (by omega),
      Bool.or_false]

theorem Performs.marker (h : Performs m ds n) (late : 3 < m.sequencer.fall.stage) :
    n.sequencer.skippedCall = m.sequencer.skippedCall := by
  induction h with
  | last live decide supported last =>
    rw [live.next_marker decide supported, skipsCall_eq_false decide (by omega), Bool.or_false]
  | @more m n d ds live decide supported more rest ih =>
    have next := live.next_stage decide supported more
    rw [ih (by omega), live.next_marker decide supported, skipsCall_eq_false decide (by omega),
      Bool.or_false]

theorem Performs.marker_three (h : Performs m ds n) (at3 : m.sequencer.fall.stage = 3) :
    n.sequencer.skippedCall =
      (m.sequencer.skippedCall || skipsCall (.decode m.opcode) m.probe) := by
  have decides {d : Decision} (decide : m.sequencer.fall.decision m.opcode m.probe = .ok d) :
      d.skipsCall = skipsCall (.decode m.opcode) m.probe := by
    rw [Sequencer.decision_skipsCall decide, at3, beq_self_eq_true, Bool.true_and]
  cases h with
  | last live decide supported last => rw [live.next_marker decide supported, decides decide]
  | more live decide supported more rest =>
    have next := live.next_stage decide supported more
    rw [rest.marker (by omega), live.next_marker decide supported, decides decide]

/-- The words of an instruction leave its opcode, the halt signal if it halts, and the stage that
they end at. -/
theorem Performs.leaves (h : Performs m ds n) (own : 3 ≤ m.sequencer.fall.stage)
    (short : m.sequencer.fall.stage + ds.length ≤ 255) :
    n.opcode = m.opcode ∧ n.halted = (Instruction.decode m.opcode).halts ∧
      n.sequencer.stage + 1 = m.sequencer.fall.stage + ds.length := by
  induction h with
  | last live decide supported last =>
    refine ⟨live.next_opcode decide supported own, ?_, ?_⟩
    · rw [(live.ticks decide supported).1]
      rw [Sequencer.decision_of_own own] at decide
      exact decision_halts decide
    · rw [(live.obeyed decide supported).2.sequencer]
      rfl
  | @more m n d ds live decide supported more rest ih =>
    rw [List.length_cons] at short ⊢
    have next := live.next_stage decide supported more
    have same := live.next_opcode decide supported own
    obtain ⟨opcode, halted, stage⟩ := ih (by omega) (by omega)
    rw [same] at opcode halted
    exact ⟨opcode, halted, by omega⟩

/-! ## Instructions -/

/-- The machine `n` has just completed the instruction at the program counter of `m`. -/
structure Completed (m n : Machine) : Prop where
  ready : n.Ready
  state : n.programState = m.programState.execute m.programState.instruction
  clock : n.clock.halfTicks = m.clock.halfTicks + m.programState.halfTicks
  opcode : Instruction.decode n.opcode = m.programState.instruction
  halted : n.halted = m.programState.instruction.halts
  stage : n.sequencer.stage =
    2 + (ownWords m.programState.instruction m.programState.probe).length
  skipped : n.sequencer.skippedCall = skipsCall m.programState.instruction m.programState.probe

theorem Ready.instruct_performs (h : m.Ready)
    (named : m.programState.instruction.operation? ≠ some .daa) :
    ∃ es, Performs (m.marked false).fetched es m.instruct.machine ∧
      es.map Decision.word = ownWords m.programState.instruction m.programState.probe := by
  have cleared : (m.marked false).Ready := h.clearSkippedCall
  obtain ⟨ok, reached, -, -, steps⟩ := cleared.fetch_halfTicks
  obtain ⟨es, k, performs, own, -⟩ := cleared.performs_fetched named
  have short : es.length ≤ 13 := by
    rw [← List.length_map, own]
    exact ownWords_length_le _ _
  have last : m.instruct.machine = k := by
    have machine := congrArg Moment.machine (steps 13)
    rwa [Moment.machine_andThen_of_ok ok, reached, (performs.pairs_eq short).2] at machine
  exact ⟨es, last ▸ performs, own⟩

theorem Ready.completed (h : m.Ready)
    (named : m.programState.instruction.operation? ≠ some .daa) :
    m.Completed m.instruct.machine := by
  obtain ⟨-, after, meaning, clock⟩ := h.instruct named
  have cleared : (m.marked false).Ready := h.clearSkippedCall
  obtain ⟨ds, passes, words, live, more, stage, datapath, probe⟩ := cleared.fetches
  obtain ⟨es, performs, own⟩ := h.instruct_performs named
  have decoded : Instruction.decode (m.marked false).fetched.opcode = m.programState.instruction :=
    decode_of_fetched datapath
  have length := congrArg List.length own
  have short := ownWords_length_le m.programState.instruction m.programState.probe
  rw [List.length_map] at length
  have first : (m.marked false).sequencer.fall.stage = 0 := by
    simp [Sequencer.fall, cleared.atLast]
  have three : ds.length = 3 := by
    rw [← List.length_map, words]
    rfl
  have third := Sequencer.fall_stage more (by omega)
  obtain ⟨opcode, halted, count⟩ := performs.leaves (by omega) (by omega)
  have clear := passes.marker (by rw [first]; omega)
  have marker := performs.marker_three (by omega)
  rw [clear, decoded, probe] at marker
  exact ⟨after, meaning, clock, by rw [opcode, decoded], by rw [halted, decoded], by omega,
    marker.trans (Bool.false_or _)⟩

/-- A machine that rests holds the opcode of an instruction that halts, and is past its fetch. -/
theorem Coherent.of_halted (h : m.Coherent) (halted : m.halted = true) :
    (Instruction.decode m.opcode).halts = true ∧ 3 ≤ m.sequencer.stage := by
  have plain : ∀ w ∈ fetch, w.halts = false := by decide
  rw [Machine.halted] at halted
  rcases h.sequencer.word_cases with ⟨-, idle | fetching⟩ | ⟨own, p, d, decide, word, -⟩
  · rw [idle] at halted
    cases halted
  · rw [plain _ (List.mem_of_getElem? fetching)] at halted
    cases halted
  · rw [word, decision_halts decide] at halted
    exact ⟨halted, own⟩

theorem Coherent.running_of_latched {f : Fault} (h : m.Coherent)
    (latched : m.fault = some f) : m.halted = false := by
  rw [Bool.eq_false_iff]
  intro halted
  have halts := (h.of_halted halted).1
  rw [(h.stuck latched).opcode] at halts
  cases halts

end Machine

end Micro8080
