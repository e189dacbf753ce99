import Micro8080.Proofs.Machine.Recording
import Micro8080.Proofs.Program.Ending

/-! # Stages

Each instruction has a last stage that is known from its opcode (`Instruction.finalStage`), and the
words of its microprogram fill the stages from 3 up to this one.  Branches that are not taken, and
calls that the host answers, end at stage 3 instead (`ProgramState.lastStage_eq`).

A period shows the same stage, word and bus after its tock and after its tick, and the stages of an
instruction are passed one by one, up to the one that is marked as the last
(`Machine.Ready.shows`).
-/

namespace Micro8080

open Microcode

/-- The last stage of an instruction that is carried out to its end, the fetch counted in. -/
def Instruction.finalStage : Instruction → Nat
  | .halt | .move .. | .stepPair .. | .operateAccumulator _ | .output | .jumpHl
  | .unimplemented _ => 3
  | .stepRegister t _ => if t = .a then 3 else 5
  | .moveFromMemory _ | .moveToMemory _ | .operateRegister .. => 4
  | .moveImmediate _ | .operateMemory _ | .operateImmediate _ | .exchange => 5
  | .stepMemory _ => 6
  | .moveImmediateToMemory | .indirect .. => 7
  | .jump _ | .push _ | .pop _ => 8
  | .loadPairImmediate _ | .ret _ => 9
  | .direct _ => 10
  | .exchangeStackTop | .addPair _ => 11
  | .call _ => 15

theorem Instruction.finalStage_eq (i : Instruction) : i.finalStage = i.lastStage := by
  cases i
  case stepRegister t decrement => cases t <;> rfl
  all_goals rfl

namespace ProgramState

/-- The instruction at the program counter ends at stage 3, whatever its microprogram: it is a
branch that is not taken, or a call that the host answers. -/
def endsEarly (s : ProgramState) : Bool :=
  match s.instruction with
  | .jump k | .ret k => !s.meets k
  | .call k => s.operandWord == systemVector || !s.meets k
  | _ => false

/-- The last stage of the instruction at the program counter. -/
def lastStage (s : ProgramState) : Nat := if s.endsEarly then 3 else s.instruction.finalStage

theorem lastStage_eq (s : ProgramState) :
    s.lastStage = 2 + (ownWords s.instruction s.probe).length := by
  have operand : s.probe.operand = s.operandWord := rfl
  rw [lastStage, Instruction.finalStage_eq]
  cases at_pc : s.instruction
  case jump k =>
    simp only [endsEarly, at_pc, ownWords, shortcut, Datapath.fails_eq]
    cases s.meets k <;> rfl
  case ret k =>
    simp only [endsEarly, at_pc, ownWords, shortcut, Datapath.fails_eq]
    cases s.meets k <;> rfl
  case call k =>
    simp only [endsEarly, at_pc, ownWords, shortcut, Datapath.fails_eq, operand]
    by_cases own : s.operandWord = systemVector
    · simp [own]
    · cases taken : s.meets k <;> simp [own, Instruction.lastStage]
  all_goals simp [endsEarly, at_pc, ownWords, shortcut, Instruction.lastStage]

end ProgramState

namespace Machine

variable {m n : Machine} {d : Decision} {ds : List Decision}

/-- What shows of a stage: the machine `p` is found after its tock, and `q` after its tick. -/
structure Shows (stage : Nat) (last : Prop) (p q : Machine) : Prop where
  stage : p.sequencer.stage = stage
  last : p.sequencer.atLast = true ↔ last
  sequencer : q.sequencer = p.sequencer
  bus : q.bus = p.bus

theorem Live.shows (live : m.Live) (decide : m.sequencer.fall.decision m.opcode m.probe = .ok d)
    (supported : d.word.adjusts = false) :
    Shows m.sequencer.fall.stage (d.last = true) m.halfTick.machine m.pair.machine := by
  have obeyed := (live.obeyed decide supported).2
  obtain ⟨alu, driven, fall, drive, ok, tocked⟩ := live.tock decide
  obtain ⟨-, line, moment⟩ := live.tocked tocked
  have fine := (live.tick decide supported fall drive tocked).1
  refine ⟨by rw [tocked]; rfl, by rw [tocked]; rfl, by rw [obeyed.sequencer, tocked], ?_⟩
  have ticks := fault_phaseMoment line fine
  rw [moment] at ticks
  rw [pair, Moment.machine_andThen_of_ok ok, halfTick_of_phase line fine, moment]
  exact (latches_tick ticks).bus

/-- The stages of a run follow one another, and only the last of them is marked. -/
theorem Performs.shows (h : Performs m ds n) (small : m.sequencer.fall.stage + ds.length ≤ 255)
    {j : Nat} (lt : j < ds.length) :
    Shows (m.sequencer.fall.stage + j) (j + 1 = ds.length) (m.halfTicks (2 * j + 1)).machine
      (m.halfTicks (2 * j + 2)).machine := by
  -- on the run, the index counted from its start
  induction h generalizing j with
  | @last m d live decide supported last =>
    obtain rfl : j = 0 := by simpa using lt
    have shows := live.shows decide supported
    rw [Nat.mul_zero, Nat.zero_add, halfTicks_one, ← pair_eq]
    exact ⟨shows.stage, shows.last.trans (by simp [last]), shows.sequencer, shows.bus⟩
  | @more m n d ds live decide supported more rest ih =>
    have shows := live.shows decide supported
    cases j with
    | zero =>
      have long : ds ≠ [] := by rintro rfl; cases rest
      rw [Nat.mul_zero, Nat.zero_add, halfTicks_one, ← pair_eq]
      exact ⟨shows.stage, shows.last.trans (by simp [more, long]), shows.sequencer, shows.bus⟩
    | succ j =>
      rw [List.length_cons] at small lt
      have ok := (live.obeyed decide supported).1
      have next := live.next_stage decide supported more
      have later := ih (by omega) (by omega : j < ds.length)
      have tock : 2 * (j + 1) + 1 = 2 + (2 * j + 1) := by omega
      have tick : 2 * (j + 1) + 2 = 2 + (2 * j + 2) := by omega
      rw [tock, tick, halfTicks_add, halfTicks_add 2, ← pair_eq, Moment.machine_andThen_of_ok ok,
        Moment.machine_andThen_of_ok ok]
      refine ⟨later.stage.trans (by omega), later.last.trans ?_, later.sequencer, later.bus⟩
      rw [List.length_cons]
      omega

/-- An instruction that comes to its end passes its stages from 0 up to its last one. -/
theorem Ready.shows (h : m.Ready) (named : m.programState.instruction.operation? ≠ some .daa)
    {j : Nat} (le : j ≤ m.programState.lastStage) :
    Shows j (j = m.programState.lastStage) (m.halfTicks (2 * j + 1)).machine
      (m.halfTicks (2 * j + 2)).machine := by
  obtain ⟨ds, n, performs, words⟩ := h.performs named
  have length := congrArg List.length words
  rw [List.length_map, List.length_append] at length
  have three : fetch.length = 3 := rfl
  have short := ownWords_length_le m.programState.instruction m.programState.probe
  have last := m.programState.lastStage_eq
  have first : m.sequencer.fall.stage = 0 := by simp [Sequencer.fall, h.atLast]
  have shows := performs.shows (by omega) (by omega : j < ds.length)
  refine ⟨shows.stage.trans (by omega), shows.last.trans (by omega), shows.sequencer, shows.bus⟩

/-! ## What is shown of them -/

theorem Ready.instruct_eq (h : m.Ready)
    (named : m.programState.instruction.operation? ≠ some .daa) :
    m.instruct = (m.marked false).halfTicks m.programState.halfTicks := by
  have fresh : (m.marked false).Ready := h.clearSkippedCall
  obtain ⟨-, -, -, -, steps⟩ := fresh.spans named
  exact steps

end Machine

end Micro8080
