import Micro8080.Proofs.Machine.Recording
import Micro8080.Proofs.Machine.Termination
import Micro8080.Proofs.Program.Ending
import Micro8080.Proofs.Program.Midway

/-! # What a fetch shows

A half-tick reports a fetch when the tick of a word latches the opcode, and no other half-tick does
(`Machine.fetches_tick`).  An instruction has one such word, that of stage 1, which comes before
anything has changed: the report gives the address and the memory that the instruction began with
(`Machine.Ready.fetches_once`).  The opcode stays in its register until the next fetch
(`Machine.Ready.opcode_instruct`).
-/

namespace Micro8080

open Microcode

def Event.isFetch : Event → Bool
  | .fetched .. => true
  | _ => false

/-- The fetches that a run reports, in order. -/
def Moment.fetches (t : Moment) : List Event := t.events.filter Event.isFetch

theorem Moment.fetches_andThen_of_ok {t : Moment} (h : t.fault = none) (f : Machine → Moment) :
    (t.andThen f).fetches = t.fetches ++ (f t.machine).fetches := by
  rw [Moment.andThen_of_ok h]
  exact List.filter_append _ _

theorem Microcode.keeps_opcode_of_mem_ownWords {i : Instruction} {p : Probe} {w : ControlWord}
    (mem : w ∈ ownWords i p) : w.loadInstruction = false := by
  simp only [ownWords] at mem
  split at mem
  · next d short =>
    rw [List.mem_singleton] at mem
    rw [mem]
    rcases (shortcut_word short).2.2 with word | word <;> rw [word] <;> rfl
  · exact program_keeps_opcode i w mem

namespace Machine

variable {m n : Machine} {d : Decision} {ds : List Decision}

theorem fetches_tock (m : Machine) : m.tock.fetches = [] := by
  rcases m.events_tock with silent | ⟨n, halt, taken, announced⟩
  · rw [Moment.fetches, silent, List.filter_nil]
  · rw [Moment.fetches, announced, announce.eq_def]
    split <;> cases taken <;> rfl

/-- The address is that before the tick, and the memory that after it. -/
theorem fetches_tick (ok : m.tick.fault = none) :
    m.tick.fetches =
      if m.sequencer.word.loadInstruction then [.fetched m.pc m.tick.machine.memory] else [] := by
  obtain ⟨registers, memory, alu, latch, store, operate⟩ := tick_inv ok
  rw [tick_eq latch store operate]
  cases m.sequencer.word.loadInstruction <;> cases m.sequencer.word.outputs <;> rfl

theorem fetches_halfTick (line : m.resetPending = false) (ok : m.halfTick.fault = none) :
    m.halfTick.fetches = m.phaseMoment.fetches := by
  rw [halfTick_of_phase line ok, Moment.fetches, List.filter_append]
  exact List.append_nil _

/-- In a period it is the tick that reports a fetch. -/
theorem Live.fetches_period (live : m.Live)
    (decide : m.sequencer.fall.decision m.opcode m.probe = .ok d)
    (supported : d.word.adjusts = false) :
    m.halfTick.fetches = [] ∧
      m.halfTick.machine.halfTick.fetches =
        if d.word.loadInstruction then [.fetched m.pc m.pair.machine.memory] else [] := by
  obtain ⟨alu, driven, fall, drive, ok, tocked⟩ := live.tock decide
  obtain ⟨-, line, moment⟩ := live.tocked tocked
  have fine := (live.tick decide supported fall drive tocked).1
  have lawful : d.word.Lawful := (Sequencer.Coherent.of_adopt decide).lawful
  have ticks := fault_phaseMoment line fine
  constructor
  · rw [fetches_halfTick live.line ok, phaseMoment, live.phase, fetches_tock]
  · have pc : m.halfTick.machine.pc = m.pc := by
      rw [tocked, driven_eq lawful drive]
      rfl
    have word : m.halfTick.machine.sequencer.word = d.word := by
      rw [tocked]
      rfl
    have memory : m.pair.machine.memory = m.halfTick.machine.tick.machine.memory := by
      rw [pair, Moment.machine_andThen_of_ok ok, halfTick_of_phase line fine, moment]
    rw [moment] at ticks
    rw [fetches_halfTick line fine, moment, fetches_tick ticks, pc, word, memory]

theorem Live.fetches_pair (live : m.Live)
    (decide : m.sequencer.fall.decision m.opcode m.probe = .ok d)
    (supported : d.word.adjusts = false) :
    m.pair.fetches =
      if d.word.loadInstruction then [.fetched m.pc m.pair.machine.memory] else [] := by
  obtain ⟨silent, reports⟩ := live.fetches_period decide supported
  rw [pair, Moment.fetches_andThen_of_ok (live.tocks decide).1, silent, List.nil_append, reports]
  rfl

theorem Periods.fetches_eq_nil (h : Periods m ds n)
    (keeps : ∀ d ∈ ds, d.word.loadInstruction = false) :
    (m.halfTicks (2 * ds.length)).fetches = [] := by
  induction h with
  | stay => rfl
  | more live decide supported rest ih =>
    rw [halfTicks_cons, Moment.fetches_andThen_of_ok (live.obeyed decide supported).1,
      live.fetches_pair decide supported, keeps _ List.mem_cons_self,
      ih fun e mem => keeps e (List.mem_cons_of_mem _ mem)]
    rfl

/-- The fetch is reported by the tick of stage 1, the fourth of its half-ticks. -/
theorem Ready.fetches_six (h : m.Ready) :
    let s := (m.halfTicks 3).machine
    s.sequencer.stage = 1 ∧ s.clock.phase = .tick ∧
      ∃ k : Memory, k.bytes = m.memory.bytes ∧ s.halfTick.fetches = [.fetched m.pc k] ∧
        (m.halfTicks 6).fetches = [.fetched m.pc k] := by
  have first : m.sequencer.fall.stage = 0 := by simp [Sequencer.fall, h.atLast]
  obtain ⟨d, decide, -, word, supported, obeyed, atLast, stage⟩ :=
    h.toLive.fetches first (by omega)
  have second := Sequencer.fall_stage atLast (by omega)
  rw [stage] at second
  obtain ⟨d', decide', -, word', supported', obeyed', atLast', stage'⟩ :=
    obeyed.live.fetches second (by omega)
  have third := Sequencer.fall_stage atLast' (by omega)
  rw [stage'] at third
  obtain ⟨d'', decide'', -, word'', supported'', -⟩ := obeyed'.live.fetches third (by omega)
  have ok := (h.toLive.obeyed decide supported).1
  have ok' := (obeyed.live.obeyed decide' supported').1
  obtain ⟨alu, driven, -, -, tock, tocked⟩ := obeyed.live.tock decide'
  have pc : m.pair.machine.pc = m.pc := by
    have same := congrArg (fun d => d.pc) obeyed.datapath
    rw [word] at same
    exact same
  have bytes : m.pair.machine.pair.machine.memory.bytes = m.memory.bytes := by
    have same := congrArg (fun d => d.memory) obeyed'.datapath
    rw [obeyed.datapath, word, word'] at same
    exact same
  intro s
  have place : s = m.pair.machine.halfTick.machine := by
    rw [← Moment.machine_andThen_of_ok ok halfTick, pair_eq, ← halfTicks_succ]
  rw [place]
  refine ⟨?_, ?_, m.pair.machine.pair.machine.memory, bytes, ?_, ?_⟩
  · rw [tocked]
    exact second
  · have flips := phase_halfTick obeyed.live.line tock
    rw [obeyed.live.phase] at flips
    exact Phase.eq_tick flips
  · rw [(obeyed.live.fetches_period decide' supported').2, word', pc]
    rfl
  · have six : m.halfTicks 6 = m.pair.andThen fun n => n.pair.andThen pair := by
      rw [halfTicks_succ_succ 4, halfTicks_succ_succ 2, ← pair_eq, Moment.andThen_assoc]
    rw [six, Moment.fetches_andThen_of_ok ok, Moment.fetches_andThen_of_ok ok',
      h.toLive.fetches_pair decide supported, obeyed.live.fetches_pair decide' supported',
      obeyed'.live.fetches_pair decide'' supported'', word, word', word'', pc]
    rfl

theorem Ready.fetches_once (h : m.Ready)
    (named : m.programState.instruction.operation? ≠ some .daa) :
    (m.halfTicks m.programState.halfTicks).fetches = (m.halfTicks 6).fetches := by
  obtain ⟨ok, reached, -⟩ := h.fetch_halfTicks
  obtain ⟨es, n, performs, words, total⟩ := h.performs_fetched named
  have own := performs.periods.fetches_eq_nil fun d mem =>
    keeps_opcode_of_mem_ownWords (words ▸ List.mem_map_of_mem mem)
  rw [total, halfTicks_add, Moment.fetches_andThen_of_ok ok, reached, own, List.append_nil]

theorem Ready.opcode_instruct (h : m.Ready)
    (named : m.programState.instruction.operation? ≠ some .daa) :
    m.instruct.machine.opcode = m.memory.read m.pc := by
  have cleared : (m.marked false).Ready := h.clearSkippedCall
  obtain ⟨ds, -, -, -, more, stage, -⟩ := cleared.fetches
  obtain ⟨es, performs, own⟩ := h.instruct_performs named
  have length := congrArg List.length own
  have short := ownWords_length_le m.programState.instruction m.programState.probe
  rw [List.length_map] at length
  have third := Sequencer.fall_stage more (by omega)
  rw [(performs.leaves (by omega) (by omega)).1, cleared.fetched_holds.1]
  rfl

end Machine

end Micro8080
