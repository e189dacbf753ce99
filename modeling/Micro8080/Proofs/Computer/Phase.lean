import Micro8080.Proofs.Computer.Boundary
import Micro8080.Proofs.Computer.Timeline
import Micro8080.Proofs.Machine.Termination
import Micro8080.Proofs.Program.Timing

/-! # The phase of a step

A step takes half-ticks two at a time, and does not look at the clock before it begins.  It always
reaches a last stage, but whether it also ends with the tick of that stage depends on where it
began: only a step that begins with a tock, with the reset line down, ends between two instructions
(`step_finishes_iff`).  Any other step ends between the tock and the tick of a last stage, and so
does every step after it.
-/

namespace Micro8080

open Microcode

namespace Machine

variable {m n : Machine}

/-- An instruction has just ended: the half-tick before was the tick of its last stage. -/
structure Finished (m : Machine) : Prop where
  phase : m.clock.phase = .tock
  atLast : m.sequencer.atLast = true
  latched : ∃ k : Machine, k.clock.phase = .tick ∧ k.sequencer.atLast = true ∧
    k.halfTick.fault = none ∧ k.halfTick.machine = m

/-! ## Pairs of half-ticks -/

theorem phase_pair (line : m.resetPending = false) (ok : m.pair.fault = none) :
    m.pair.machine.clock.phase = m.clock.phase := by
  obtain ⟨first, second⟩ := Moment.fault_of_andThen ok
  obtain ⟨-, -, down, clock⟩ := halfTick_keeps first
  obtain ⟨-, -, -, clock'⟩ := halfTick_keeps second
  rw [line] at clock
  rw [down, clock] at clock'
  rw [pair, Moment.machine_andThen_of_ok first, clock']
  exact m.clock.phase_advance_advance

theorem phase_pair_of_reset (line : m.resetPending = true) (ok : m.pair.fault = none) :
    m.pair.machine.clock.phase = .tick := by
  obtain ⟨first, second⟩ := Moment.fault_of_andThen ok
  obtain ⟨-, -, down, clock⟩ := halfTick_keeps first
  obtain ⟨-, -, -, clock'⟩ := halfTick_keeps second
  rw [line] at clock
  rw [down, clock] at clock'
  rw [pair, Moment.machine_andThen_of_ok first, clock']
  rfl

theorem finished_pair (line : m.resetPending = false) (ok : m.pair.fault = none)
    (tock : m.clock.phase = .tock) (atLast : m.pair.machine.sequencer.atLast = true) :
    m.pair.machine.Finished := by
  obtain ⟨first, second⟩ := Moment.fault_of_andThen ok
  have down := (halfTick_keeps first).2.2.1
  have flips := phase_halfTick line first
  rw [tock] at flips
  refine ⟨(phase_pair line ok).trans tock, atLast, m.halfTick.machine, Phase.eq_tick flips, ?_,
    second, ?_⟩
  · rw [pair, Moment.machine_andThen_of_ok first,
      sequencer_of_tick down second (Phase.eq_tick flips)] at atLast
    exact atLast
  · rw [pair, Moment.machine_andThen_of_ok first]

/-! ## Steps -/

/-- The phase that the clock has after each round of a loop that begins with `m`. -/
def loopPhase (m : Machine) : Phase := if m.resetPending then .tick else m.clock.phase

theorem loopPhase_of_line (line : m.resetPending = false) : m.loopPhase = m.clock.phase := by
  rw [loopPhase, line, if_neg Bool.false_ne_true]

theorem phase_pair_eq (ok : m.pair.fault = none) : m.pair.machine.clock.phase = m.loopPhase := by
  cases line : m.resetPending with
  | true => rw [phase_pair_of_reset line ok, loopPhase, line, if_pos rfl]
  | false => rw [phase_pair line ok, loopPhase_of_line line]

/-- How the loop of a step ends whose rounds end in this phase. -/
structure EndsLast (m : Machine) (p : Phase) : Prop where
  running : m.fault = none
  line : m.resetPending = false
  atLast : m.sequencer.atLast = true
  phase : m.clock.phase = p
  finished : p = .tock → m.Finished

theorem Loop.endsLast {k : Nat} {t : Moment} (h : Loop k m t) (ok : t.fault = none) :
    t.machine.EndsLast m.loopPhase := by
  induction h with
  | fails raised => exact absurd (raised.symm.trans ok) (Option.some_ne_none _)
  | @ends m _ atLast =>
    obtain ⟨running, down⟩ := pair_keeps ok
    refine ⟨running, down, atLast, phase_pair_eq ok, fun tock => ?_⟩
    cases line : m.resetPending with
    | true => rw [loopPhase, line, if_pos rfl] at tock; cases tock
    | false => exact finished_pair line ok (loopPhase_of_line line ▸ tock) atLast
  | goes first more rest ih =>
    rw [Moment.fault_andThen_of_ok first] at ok
    rw [Moment.machine_andThen_of_ok first]
    have ends := ih ok
    rwa [loopPhase_of_line (pair_keeps first).2, phase_pair_eq first] at ends

theorem instruct_ends (ok : m.instruct.fault = none) :
    m.instruct.machine.EndsLast (if m.resetPending then .tick else m.clock.phase) := by
  obtain ⟨n, -, loop⟩ := m.loop_instruct
  exact loop.endsLast ok

/-! ## Steps that begin late -/

/-- Pairs of half-ticks that begin with the tick of a stage end with the tock of the last one. -/
theorem Performs.late {ds : List Decision} (h : Performs m ds n) (long : 2 ≤ ds.length) {fuel : Nat}
    (enough : ds.length ≤ fuel + 1) :
    pairs fuel m.halfTick.machine = m.halfTick.machine.halfTicks (2 * (ds.length - 1)) := by
  induction h generalizing fuel with
  | last live decide supported last => simp at long
  | @more m n d ds live decide supported more rest ih =>
    obtain ⟨fuel, rfl⟩ : ∃ k, fuel = k + 1 := ⟨fuel - 1, by omega⟩
    have ok := (live.obeyed decide supported).1
    obtain ⟨tock, tick⟩ := Moment.fault_of_andThen ok
    have next : m.halfTick.machine.halfTick.machine = m.pair.machine := by
      rw [pair, Moment.machine_andThen_of_ok tock]
    have goes {e : Decision} (live' : m.pair.machine.Live)
        (decide' : m.pair.machine.sequencer.fall.decision m.pair.machine.opcode
          m.pair.machine.probe = .ok e) :
        m.halfTick.machine.pair.fault = none ∧
          m.halfTick.machine.pair.machine = m.pair.machine.halfTick.machine ∧
          m.halfTick.machine.pair.machine.sequencer.atLast = e.last := by
      obtain ⟨ok', -, atLast, -⟩ := live'.tocks decide'
      have machine : m.halfTick.machine.pair.machine = m.pair.machine.halfTick.machine := by
        rw [pair, Moment.machine_andThen_of_ok tick, next]
      refine ⟨?_, machine, machine ▸ atLast⟩
      rw [pair, Moment.fault_andThen_of_ok tick, next, ok']
    cases rest with
    | @last _ e live' decide' supported' last' =>
      obtain ⟨fine, -, atLast⟩ := goes live' decide'
      exact (pairs_of_last (atLast.trans last') fuel).trans (pair_eq _)
    | @more _ _ e es live' decide' supported' more' rest' =>
      obtain ⟨fine, machine, atLast⟩ := goes live' decide'
      have split : 2 * ((d :: e :: es).length - 1) = 2 + 2 * ((e :: es).length - 1) := by
        simp only [List.length_cons]
        omega
      have pos : 2 ≤ (e :: es).length := by
        cases rest' <;> simp
      have later := ih pos (by simpa using enough)
      rw [split, halfTicks_add, ← pair_eq, pairs_of_more (atLast.trans more')]
      refine Moment.andThen_congr fine ?_
      rw [machine]
      exact later

/-- A step that begins one half-tick late ends one half-tick before the instruction does. -/
theorem Ready.instruct_late (h : m.Ready)
    (named : m.programState.instruction.operation? ≠ some .daa) :
    m.halfTick.machine.instruct.fault = none ∧
      (∃ b, m.halfTick.machine.instruct.machine =
        (m.halfTicks (m.programState.halfTicks - 1)).machine.marked b) ∧
      m.halfTick.machine.instruct.machine.clock.halfTicks =
        m.clock.halfTicks + (m.programState.halfTicks - 1) := by
  obtain ⟨ds, n, performs, words⟩ := h.performs named
  have length := congrArg List.length words
  have short := ownWords_length_le m.programState.instruction m.programState.probe
  have three : fetch.length = 3 := rfl
  rw [List.length_map, List.length_append, three] at length
  have first := fault_of_le (h.spans named).1 (by rw [ProgramState.halfTicks]; omega : 1 ≤ _)
  rw [halfTicks_one] at first
  have fuel : ds.length ≤ maxStages + 1 := by
    rw [maxStages]
    omega
  have late := performs.late (by omega) fuel
  have same := same_pairs maxStages m.halfTick.machine false
  rw [late] at same
  have total : m.programState.halfTicks - 1 = 1 + 2 * (ds.length - 1) := by
    rw [ProgramState.halfTicks, length]
    omega
  have ok := fault_of_le (h.spans named).1 (Nat.sub_le _ 1)
  have clock := (clock_halfTicks h.line ok).1
  rw [total] at clock
  rw [total, halfTicks_add, halfTicks_one, Moment.fault_andThen_of_ok first] at ok
  rw [halfTicks_add, halfTicks_one, Moment.machine_andThen_of_ok first] at clock
  rw [total, halfTicks_add, halfTicks_one, Moment.machine_andThen_of_ok first]
  obtain ⟨b, machine⟩ := same.machine
  refine ⟨same.fault.trans ok, ⟨b, machine⟩, ?_⟩
  rw [← clock]
  exact congrArg (fun k => k.clock.halfTicks) machine

end Machine

namespace Computer

variable {ω : Type} (see : ω → Event → ω)

/-- After any calls, a step that succeeds reaches the last stage of an instruction.  It ends between
two instructions, so that the next step does what the next instruction means, if and only if it
began with a tock and with the reset line down; otherwise the tick of the last stage is still to
come. -/
theorem step_finishes_iff (k : Config) (calls : List Call) (w : ω) {c' : Computer} {w' : ω}
    (ok : ((new k).performAll see w calls).1.step see ((new k).performAll see w calls).2 =
      (c', w', .ok ())) :
    let c := ((new k).performAll see w calls).1
    let s := c'.machine.programState
    c'.machine.sequencer.atLast = true ∧
    (c'.machine.Finished ↔ c.machine.clock.phase = .tock ∧ c.machine.resetPending = false) ∧
    (c'.machine.Finished →
      (s.instruction.operation? ≠ some .daa →
        StepsTo see c' w' (s.execute s.instruction)) ∧
      (s.instruction.operation? = some .daa →
        (c'.step see w').2.2 = .error (.unsupportedOperation .daa))) ∧
    (¬ c'.machine.Finished → c'.machine.clock.phase = .tick) := by
  have coherent : ((new k).performAll see w calls).1.machine.Coherent :=
    performAll_coherent see Machine.coherent_new calls
  generalize (new k).performAll see w calls = t at coherent ok ⊢
  obtain ⟨c, v⟩ := t
  intro c s
  have machine : c'.machine = c.machine.instruct.machine := by
    rw [← machine_step see c v, ok]
  have fine : c.machine.instruct.fault = none := by
    have result := result_step see c v
    rw [ok, Moment.result] at result
    cases fault : c.machine.instruct.fault with
    | none => rfl
    | some f =>
      rw [fault] at result
      cases result
  have ends := Machine.instruct_ends fine
  have after := coherent.sound_instruct.coherent
  rw [← machine] at ends after
  refine ⟨ends.atLast, ⟨fun finished => ?_, fun aligned => ?_⟩, fun finished => ?_,
    fun unfinished => ?_⟩
  · have phase := ends.phase
    rw [finished.phase] at phase
    cases line : c.machine.resetPending with
    | true =>
      rw [line] at phase
      cases phase
    | false =>
      rw [line] at phase
      exact ⟨phase.symm, rfl⟩
  · refine ends.finished ?_
    rw [aligned.2]
    exact aligned.1
  · have ready : c'.machine.Ready :=
      ⟨⟨ends.running, ends.line, finished.phase, after.sequencer⟩, ends.atLast⟩
    refine ⟨steps_of_ready ready, fun named => ?_⟩
    rw [result_step, Moment.result, ready.instruct_refused named]
  · refine Phase.eq_tick fun tock => unfinished (ends.finished ?_)
    rw [← ends.phase, tock]

theorem step_finishes_iff_halt :
    let see : Unit → Event → Unit := fun _ _ => ()
    let c := ((new {}).performAll see () [.reset #[0x76]]).1
    (c.step see ()).1.machine.Finished := by
  intro see c
  have start : c = ((new {}).reset #[0x76]).1 := rfl
  have ready : c.machine.Ready := start ▸ Machine.ready_powerOn #[0x76]
  have halt : c.machine.programState.instruction = .halt := by
    rw [start]
    exact instruction_reset (new {}) (by decide)
  obtain ⟨c', w', ok, -⟩ : StepsTo see c () _ :=
    steps_of_ready ready (by rw [halt]; simp [Instruction.operation?])
  have finishes := (step_finishes_iff see {} [.reset #[0x76]] () ok).2.1.2
    ⟨ready.phase, ready.line⟩
  rw [ok]
  exact finishes

/-- One half-tick before a step is enough to make it end in the middle of a period. -/
theorem step_unfinished :
    let see : Unit → Event → Unit := fun _ _ => ()
    let c := ((new {}).performAll see () [.reset #[0x3C, 0x76], .halfTick]).1
    (c.step see ()).2.2 = .ok () ∧ (c.step see ()).1.machine.clock.halfTicks = 7 ∧
      ¬ (c.step see ()).1.machine.Finished := by
  intro see c
  let start := ((new {}).reset #[0x3C, 0x76]).1
  have first : c.machine = start.machine.halfTick.machine := rfl
  have ready : start.machine.Ready := Machine.ready_powerOn #[0x3C, 0x76]
  have increment : start.machine.programState.instruction = .stepRegister .a false :=
    instruction_reset (new {}) (by decide)
  have eight : start.machine.programState.halfTicks = 8 := by
    rw [ProgramState.halfTicks, increment]
    rfl
  obtain ⟨ok, -, late⟩ := ready.instruct_late (by rw [increment]; simp [Instruction.operation?])
  have clock : (c.step see ()).1.machine.clock.halfTicks = 7 := by
    rw [machine_step, first, late, eight, (fresh_reset (new {}) #[0x3C, 0x76]).1]
  refine ⟨by rw [result_step, first, Moment.result, ok], clock, fun finished => ?_⟩
  have phase := finished.phase
  rw [Clock.phase, clock] at phase
  cases phase

end Computer

end Micro8080
