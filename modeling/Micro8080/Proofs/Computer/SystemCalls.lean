import Micro8080.Proofs.Computer.Boundary
import Micro8080.Proofs.Computer.Timeline
import Micro8080.Proofs.Program.Timing

/-! # System calls

A host is asked once for each call of the system vector that a program executes, in the order of the
program, whatever mixture of half-ticks, steps and runs the computer is driven by.  What a program
executes is a matter of its states alone: `ProgramState.executed` unfolds the meaning of one
instruction after the other, and keeps count of the half-ticks only to know where to stop.
-/

namespace Micro8080

open Microcode

namespace ProgramState

variable {s : ProgramState} {n : Nat}

/-- The states before each of the instructions that are decided on within `n` half-ticks.  An
instruction is decided on in its seventh half-tick. -/
def executed (s : ProgramState) (n : Nat) : List ProgramState :=
  if n < 7 then []
  else s :: (s.execute s.instruction).executed (n - s.halfTicks)
termination_by n
decreasing_by
  have := s.halfTicks_ge
  omega

theorem executed_early (early : n < 7) : s.executed n = [] := by
  rw [executed, if_pos early]

theorem executed_one (decided : 7 ≤ n) (within : n ≤ s.halfTicks) : s.executed n = [s] := by
  rw [executed, if_neg (by omega), Nat.sub_eq_zero_of_le within, executed_early (by omega)]

theorem executed_add (s : ProgramState) (n : Nat) :
    s.executed (s.halfTicks + n) = s :: (s.execute s.instruction).executed n := by
  have := s.halfTicks_ge
  rw [executed, if_neg (by omega), Nat.add_sub_cancel_left]

end ProgramState

namespace Machine

variable {m n : Machine}

/-- Nothing is asked after the decision on an instruction, up to its end. -/
theorem Ready.requests_within (h : m.Ready)
    (named : m.programState.instruction.operation? ≠ some .daa) {n : Nat} (decided : 7 ≤ n)
    (within : n ≤ m.programState.halfTicks) :
    (m.halfTicks n).requests = (m.halfTicks 7).requests := by
  have whole := (h.spans named).2.2.2.1
  have early := requests_prefix decided m
  have late := requests_prefix within m
  rw [whole] at late
  exact late.eq_of_length_le early.length_le

/-- The tick that refuses the decimal adjustment asks for nothing, and is not over. -/
theorem Ready.stands (h : m.Ready) (named : m.programState.instruction.operation? = some .daa)
    {n : Nat} (decided : 7 ≤ n) :
    (m.halfTicks n).requests = (m.halfTicks 7).requests ∧
      (m.halfTicks n).machine.clock.halfTicks = m.clock.halfTicks + 7 := by
  have ok := h.asks.1
  obtain ⟨seven, -⟩ := clock_halfTicks h.line ok
  by_cases only : n = 7
  · rw [only]
    exact ⟨rfl, seven⟩
  · obtain ⟨j, rfl⟩ := Nat.exists_eq_add_of_le (by omega : 8 ≤ n)
    have refused := (h.refuses named).1
    have fails : (m.halfTicks 7).machine.halfTick.fault = some (.unsupportedOperation .daa) := by
      rwa [halfTicks_succ 7, Moment.fault_andThen_of_ok ok] at refused
    have tick : (m.halfTicks 7).machine.clock.phase = .tick := by
      have even := h.phase
      simp only [Clock.phase] at even ⊢
      rw [if_neg]
      split at even
      · omega
      · cases even
    rw [halfTicks_add, Moment.andThen_of_fault refused, halfTicks_succ 7,
      Moment.requests_andThen_of_ok ok, Moment.machine_andThen_of_ok ok, requests_of_tick tick,
      List.append_nil, clock_of_fault fails]
    exact ⟨rfl, seven⟩

theorem Ready.requests_eq (h : m.Ready) (n : Nat) :
    (m.halfTicks n).requests.map (fun r => (r.1, r.2.bytes)) =
      (m.programState.executed
        ((m.halfTicks n).machine.clock.halfTicks - m.clock.halfTicks)).filterMap
        ProgramState.request? := by
  -- on the number of half-ticks, one whole instruction at a time
  induction n using Nat.strongRecOn generalizing m with
  | ind n ih =>
    obtain ⟨decides, -, asked, -⟩ := h.asks
    have one : m.programState.request?.toList =
        [m.programState].filterMap ProgramState.request? := by
      cases e : m.programState.request? <;> simp [e]
    by_cases early : n < 7
    · have ok := fault_of_le decides (by omega : n ≤ 7)
      have silent := requests_prefix (by omega : n ≤ 6) m
      rw [h.fetch_halfTicks.2.2.1, List.prefix_nil] at silent
      rw [silent, (clock_halfTicks h.line ok).1, Nat.add_sub_cancel_left,
        ProgramState.executed_early early]
      rfl
    · by_cases named : m.programState.instruction.operation? = some .daa
      · obtain ⟨requests, clock⟩ := h.stands named (by omega : 7 ≤ n)
        have long := m.programState.halfTicks_ge
        rw [requests, clock, Nat.add_sub_cancel_left,
          ProgramState.executed_one (Nat.le_refl 7) (by omega), asked, one]
      · obtain ⟨ok, ready, meaning, whole, -⟩ := h.spans named
        by_cases within : n ≤ m.programState.halfTicks
        · rw [h.requests_within named (by omega) within,
            (clock_halfTicks h.line (fault_of_le ok within)).1, Nat.add_sub_cancel_left,
            ProgramState.executed_one (by omega) within, asked, one]
        · obtain ⟨j, rfl⟩ := Nat.exists_eq_add_of_le (Nat.le_of_not_le within)
          have long := m.programState.halfTicks_ge
          have rest := ih j (by omega) ready
          obtain ⟨clock, -⟩ := clock_halfTicks h.line ok
          have later := clock_le_halfTicks ready.line j
          rw [clock] at later
          rw [clock, meaning] at rest
          rw [halfTicks_add, Moment.requests_andThen_of_ok ok, Moment.machine_andThen_of_ok ok,
            List.map_append, whole, asked, one, rest]
          generalize ((m.halfTicks _).machine.halfTicks j).machine.clock.halfTicks = t at later ⊢
          have split : t - m.clock.halfTicks =
              m.programState.halfTicks + (t - (m.clock.halfTicks + m.programState.halfTicks)) := by
            omega
          rw [split, ProgramState.executed_add, ← List.filterMap_append]
          rfl

/-! ## Calls that are passed over -/

theorem cell_eq {pc a : UInt16} {o : UInt8}
    (h : n.datapath = { m.datapath with pc := pc, address := a, opcode := o }) {i : Nat}
    (lt : i < 12) (high : i ≠ 8) (low : i ≠ 9) : n.registers.cells[i] = m.registers.cells[i] := by
  have others :
      i = 0 ∨ i = 1 ∨ i = 2 ∨ i = 3 ∨ i = 4 ∨ i = 5 ∨ i = 6 ∨ i = 7 ∨ i = 10 ∨ i = 11 := by
    omega
  rcases others with rfl | rfl | rfl | rfl | rfl | rfl | rfl | rfl | rfl | rfl
  · exact congrArg (fun d => d.b) h
  · exact congrArg (fun d => d.c) h
  · exact congrArg (fun d => d.d) h
  · exact congrArg (fun d => d.e) h
  · exact congrArg (fun d => d.h) h
  · exact congrArg (fun d => d.l) h
  · simpa [datapath, RegisterFile.wz] using congrArg (fun d => d.w) h
  · simpa [datapath, RegisterFile.wz] using congrArg (fun d => d.z) h
  · simpa [datapath, programState, RegisterFile.sp] using congrArg (fun d => Word.high d.sp) h
  · simpa [datapath, programState, RegisterFile.sp] using congrArg (fun d => Word.low d.sp) h

theorem Ready.passes_over (h : m.Ready) {k : Option Condition}
    (at_pc : m.programState.instruction = .call k) (vector : m.programState.operandWord = 5) :
    m.programState.halfTicks = 8 ∧ (m.halfTicks 8).machine.sequencer.stage = 3 ∧
      (m.halfTicks 8).machine.sequencer.skippedCall = true ∧
      (m.halfTicks 8).machine.programState = m.programState.past 3 ∧
      ∀ (i : Nat) (lt : i < 12), i ≠ 8 → i ≠ 9 →
        (m.halfTicks 8).machine.registers.cells[i] = m.registers.cells[i] := by
  obtain ⟨ok, reached, -, -, -⟩ := h.fetch_halfTicks
  obtain ⟨-, -, -, live, more, stage, datapath, probe⟩ := h.fetches
  obtain ⟨d, decided, decide⟩ := decides_three more stage
  have decoded := decode_of_fetched datapath
  let skip : Decision :=
    { word := passOperand, last := true, lastStage := 3, skipsCall := true
      call := some { function := m.programState.c, argument := m.programState.de } }
  have short : shortcut (.call k) m.programState.probe = some skip := by
    have answers : m.programState.probe.operand = systemVector := vector
    simp only [shortcut, if_pos answers]
    rfl
  have skips : d = skip := by
    rw [decision, decoded, probe, at_pc] at decided
    simp only [haltReason?, if_true, short, Except.ok.injEq] at decided
    exact decided.symm
  have alone : m.programState.halfTicks = 8 := by
    rw [ProgramState.halfTicks, at_pc, ownWords, short]
    rfl
  rw [skips] at decide
  have obeyed := (live.obeyed decide rfl).2
  have eight : (m.halfTicks 8).machine = m.fetched.pair.machine := by
    rw [halfTicks_succ_succ 6, Moment.machine_andThen_of_ok ok, reached]
  have after := obeyed.datapath
  rw [datapath, Datapath.run_fetch] at after
  have passed : m.fetched.pair.machine.datapath =
      { m.datapath with
        pc := m.datapath.pc + 3, address := m.datapath.pc
        opcode := Ram.read m.datapath.memory m.datapath.pc } := by
    rw [after, ← add_one_two]
    rfl
  rw [eight]
  refine ⟨alone, ?_, ?_, congrArg Datapath.toProgramState passed, fun i => cell_eq passed⟩
  · rw [obeyed.sequencer]
    exact (Sequencer.fall_stage more (by omega)).trans (by rw [stage])
  · rw [obeyed.sequencer]
    exact Bool.or_true _

end Machine

namespace Computer

variable {ω : Type}

/-- Whatever calls a host makes to let time pass after a reset, it is asked for the system calls of
the instructions that the program executed: once for each, in their order, with memory as it was
when the instruction began.  A step from a boundary passes over such an instruction, and moves
nothing but the program counter. -/
theorem asked_in_program_order (c : Computer) (image : Array UInt8)
    (answer : ω → SystemCall → Memory → ω) (w : ω) :
    (∀ calls : List Call, (∀ call ∈ calls, call.passesTime = true) →
      let start := (c.reset image).1
      let after := start.performAll (answering answer) w calls
      ∃ asked : List (SystemCall × Memory),
        after.2 = asked.foldl (fun w r => answer w r.1 r.2) w ∧
        asked.map (fun r => (r.1, r.2.bytes)) =
          (start.machine.programState.executed
            after.1.machine.clock.halfTicks).filterMap ProgramState.request?) ∧
    (∀ (c : Computer) (w : ω), Boundary (answering answer) c w →
      let s := c.machine.programState
      ∀ k, s.instruction = .call k → s.operandWord = 5 →
        ∃ c' memory,
          c.step (answering answer) w =
            (c', answer w { function := s.c, argument := s.de } memory, .ok ()) ∧
          memory.bytes = s.memory ∧
          c'.machine.sequencer.stage = 3 ∧ c'.machine.sequencer.atLast = true ∧
          c'.machine.sequencer.skippedCall = true ∧
          c'.machine.programState = s.past 3 ∧ c'.machine.Observes s.flags ∧
          ∀ (i : Nat) (lt : i < 12), i ≠ 8 → i ≠ 9 →
            c'.machine.registers.cells[i] = c.machine.registers.cells[i]) := by
  refine ⟨?_, ?_⟩
  · intro calls passes start after
    have ready : start.machine.Ready := Machine.ready_powerOn image
    have coherent : start.machine.Coherent := Machine.coherent_powerOn image
    obtain ⟨k, b, machine, watcher⟩ :=
      exists_halfTicks_of_calls answer w coherent passes
    refine ⟨(start.machine.halfTicks k).requests, watcher, ?_⟩
    have zero : start.machine.clock.halfTicks = 0 := (fresh_reset c image).1
    have clock : after.1.machine.clock = (start.machine.halfTicks k).machine.clock := by
      rw [show after.1.machine = _ from machine]
      rfl
    rw [ready.requests_eq, clock, zero, Nat.sub_zero]
  · intro c w boundary s k at_pc vector
    let m := c.machine.marked false
    have ready : m.Ready := boundary.ready.clearSkippedCall
    have named : m.programState.instruction.operation? ≠ some .daa := by
      rw [show m.programState.instruction = .call k from at_pc]
      simp [Instruction.operation?]
    obtain ⟨length, stage, skipped, passed, cells⟩ := ready.passes_over at_pc vector
    obtain ⟨ok, after, -, whole, steps⟩ := ready.spans named
    obtain ⟨-, -, asked, -⟩ := ready.asks
    rw [length] at ok after whole steps
    have call : m.programState.request?.toList =
        [({ function := s.c, argument := s.de }, s.memory)] := by
      simp only [ProgramState.request?, show m.programState.instruction = .call k from at_pc,
        show m.programState.operandWord = 5 from vector, if_true]
      rfl
    have instruct : c.machine.instruct = m.halfTicks 8 := steps
    rw [call, ← whole, ← instruct] at asked
    obtain ⟨⟨request, memory⟩, requests, same⟩ := List.map_eq_singleton_iff.1 asked
    obtain ⟨rfl, bytes⟩ := Prod.mk.inj same
    have reached : (c.step (answering answer) w).1.machine = (m.halfTicks 8).machine := by
      rw [machine_step, instruct]
    refine ⟨(c.step (answering answer) w).1, memory, ?_, bytes, ?_⟩
    · have result : (c.step (answering answer) w).2.2 = .ok () := by
        rw [result_step, Moment.result, instruct, ok]
      have watcher := watcher_step answer w c
      rw [requests] at watcher
      rw [← result]
      exact Prod.ext rfl (Prod.ext watcher rfl)
    · rw [reached]
      refine ⟨stage, after.atLast, skipped, passed, ?_, cells⟩
      have observes := after.observes
      rw [passed] at observes
      exact observes

theorem asked_in_program_order_once :
    (((new {}).reset #[0xCD, 0x05, 0x00]).1.step (answering fun n _ _ => n + 1) 0).2.1 = 1 := by
  obtain ⟨c', memory, step, -⟩ :=
    (asked_in_program_order (new {}) #[0xCD, 0x05, 0x00] (fun n _ _ => n + 1) 0).2 _ 0
      (.reset (new {}) #[0xCD, 0x05, 0x00] 0) none (instruction_reset (new {}) (by decide))
      ((operandWord_reset (new {}) (by decide)).trans (by decide))
  rw [step]

end Computer

end Micro8080
