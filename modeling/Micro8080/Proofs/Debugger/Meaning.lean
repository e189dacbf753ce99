import Micro8080.Proofs.Computer.Stack
import Micro8080.Proofs.Computer.SystemCalls
import Micro8080.Proofs.Debugger.Execution
import Micro8080.Proofs.Program.Ending

/-! # What a debugger makes of an instruction

A debugger looks at the machine after an instruction, and concludes what the instruction did to the
frames.  Between two instructions it concludes what is true: it enters a frame for a call that the
program takes, and leaves one for a return that it takes (`frameChange_eq`).

A machine that was not between two instructions when the debugger began can mislead it.
-/

namespace Micro8080

namespace Machine

variable {m : Machine}

theorem Ready.clock_of_refused (h : m.Ready)
    (named : m.programState.instruction.operation? = some .daa) :
    m.instruct.machine.clock.halfTicks = m.clock.halfTicks + 7 := by
  have cleared : (m.marked false).Ready := h.clearSkippedCall
  have same : m.instruct = (m.marked false).halfTicks 8 := (cleared.refuses named).2.1
  rw [same]
  exact (cleared.stands named (by omega : 7 ≤ 8)).2

end Machine

namespace Computer

variable {c c' : Computer} {f : Fault}

theorem machine_next (c : Computer) : c.next.1.machine = c.machine.instruct.machine :=
  machine_step _ c ()

theorem result_next (c : Computer) : c.next.2 = c.machine.instruct.result := result_step _ c ()

theorem coherent_of_next {r : Except Fault Unit} (h : c.machine.Coherent)
    (next : c.next = (c', r)) : c'.machine.Coherent := by
  have machine := machine_next c
  rw [next] at machine
  exact machine ▸ h.sound_instruct.coherent

theorem step_of_next {r : Except Fault Unit} (next : c.next = (c', r)) :
    c.step (fun _ _ => ()) () = (c', (), r) := by
  obtain ⟨computer, result⟩ := Prod.mk.inj next
  exact Prod.ext computer (Prod.ext rfl result)

theorem completed_of_next (ready : c.machine.Ready) (ok : c.next = (c', .ok ())) :
    c.machine.Completed c'.machine := by
  have done := ready.completed (operation_of_step ready (step_of_next ok))
  rw [← machine_next, ok] at done
  exact done

/-- A step succeeds unless the instruction is the decimal adjustment. -/
theorem next_ok (ready : c.machine.Ready)
    (named : c.machine.programState.instruction.operation? ≠ some .daa) :
    ∃ c', c.next = (c', .ok ()) := by
  have result := result_next c
  rw [Moment.result, (ready.instruct named).1] at result
  exact ⟨c.next.1, Prod.ext rfl result⟩

/-- A step that fails was one of the decimal adjustment, and the fault is there to stay. -/
theorem refused_of_next (coherent : c.machine.Coherent) (ready : c.machine.Ready)
    (fails : c.next = (c', .error f)) :
    c.machine.programState.instruction.operation? = some .daa ∧
      c'.machine.clock.halfTicks = c.machine.clock.halfTicks + 7 ∧
      c'.machine.fault = some f := by
  have machine := machine_next c
  have result := result_next c
  rw [fails] at machine result
  have same : c'.machine = c.machine.instruct.machine := machine
  have named : c.machine.programState.instruction.operation? = some .daa := by
    by_cases adjusts : c.machine.programState.instruction.operation? = some .daa
    · exact adjusts
    · rw [Moment.result, (ready.instruct adjusts).1] at result
      cases result
  refine ⟨named, by rw [same]; exact ready.clock_of_refused named, ?_⟩
  rw [same]
  refine coherent.sound_instruct.latched f ?_
  rw [Moment.result] at result
  cases fault : c.machine.instruct.fault with
  | none => simp [fault] at result
  | some g => simp_all

theorem next_of_latched (latched : c.machine.fault = some f) :
    c.next.2 = .error f ∧ c.next.1.machine = c.machine.marked false := by
  rw [result_next, machine_next, Machine.instruct_of_latched latched]
  exact ⟨rfl, rfl⟩

end Computer

namespace Debugger

variable {d e : Debugger} {cs : List FrameChange} {c : Computer}

open ProgramState

/-! ## Frames -/

/-- The frame of a call that is taken from this state. -/
def frameOf (labels : Labels) (s : ProgramState) : Frame where
  name := (labels.nameAt? s.operandWord).getD unnamed
  entry := s.operandWord

/-- After an instruction that began with a ready machine the debugger concludes what the program
did. -/
theorem frameChange_eq (done : d.computer.machine.Completed c.machine) :
    { d with computer := c }.frameChange =
      (if d.computer.machine.programState.calls then .entered
      else if d.computer.machine.programState.returns ∧ 1 < d.frames.size then
        (d.frames.back?.map .returned).getD .unchanged
      else .unchanged) := by
  have opcode := done.opcode
  have stage := done.stage
  have skipped := done.skipped
  generalize d.computer.machine.programState = s at opcode stage skipped ⊢
  simp only [frameChange, opcode]
  cases at_pc : s.instruction with
  -- whether it was taken is told by the marker for a call, by the last stage for a return
  | call k =>
    have taken := calls_iff_not_skipped at_pc
    rw [← skipped] at taken
    have other : s.returns = false := by simp [returns, at_pc]
    cases marker : c.machine.sequencer.skippedCall <;> simp_all
  | ret k =>
    have taken := returns_iff_long at_pc
    rw [← stage] at taken
    have other : s.calls = false := by simp [calls, at_pc]
    have three : Sequencer.firstOwnStage = 3 := rfl
    simp only [three, ← taken, other, Bool.false_eq_true, if_false]
    cases d.frames.back? <;> rfl
  | _ => simp [calls, returns, at_pc]

theorem frameChange_entered_iff (done : d.computer.machine.Completed c.machine) :
    { d with computer := c }.frameChange = .entered ↔
      d.computer.machine.programState.calls = true := by
  rw [frameChange_eq done]
  cases d.computer.machine.programState.calls with
  | true => simp
  | false =>
    simp only [Bool.false_eq_true, if_false, iff_false]
    split
    · cases d.frames.back? <;> nofun
    · nofun

theorem frameChange_returned_iff (done : d.computer.machine.Completed c.machine) (frame : Frame) :
    { d with computer := c }.frameChange = .returned frame ↔
      d.computer.machine.programState.returns = true ∧ 1 < d.frames.size ∧
        d.frames.back? = some frame := by
  have either : ¬ (d.computer.machine.programState.calls = true ∧
      d.computer.machine.programState.returns = true) := by
    rw [calls_iff, returns_iff]
    rintro ⟨⟨k, call, -⟩, k', ret, -⟩
    rw [call] at ret
    cases ret
  rw [frameChange_eq done]
  by_cases calls : d.computer.machine.programState.calls = true
  · rw [if_pos calls]
    have other : ¬ d.computer.machine.programState.returns = true := fun ret => either ⟨calls, ret⟩
    simp [other]
  · rw [if_neg calls]
    by_cases returns : d.computer.machine.programState.returns = true ∧ 1 < d.frames.size
    · rw [if_pos returns]
      cases d.frames.back? <;> simp [returns]
    · rw [if_neg returns]
      simp only [reduceCtorEq, false_iff, ← and_assoc, not_and]
      intro both
      exact absurd both returns

/-- The frames after an instruction that began with a ready machine. -/
theorem frames_of_completed (done : d.computer.machine.Completed c.machine) :
    { d with computer := c }.trackFrames.frames =
      (if d.computer.machine.programState.calls then
        d.frames.push (frameOf d.program.labels d.computer.machine.programState)
      else if d.computer.machine.programState.returns ∧ 1 < d.frames.size then d.frames.pop
      else d.frames) := by
  simp only [trackFrames, frameChange_eq done]
  by_cases calls : d.computer.machine.programState.calls = true
  · have target : c.machine.pc = d.computer.machine.programState.operandWord := by
      have pc := congrArg ProgramState.pc done.state
      rw [execute_of_calls calls] at pc
      exact pc
    simp only [calls, if_true, enteredFrame, target, frameOf]
  · simp only [calls, Bool.false_eq_true, if_false]
    by_cases returns : d.computer.machine.programState.returns = true ∧ 1 < d.frames.size
    · have last : d.frames.back? = some (d.frames.back (by omega)) := by
        rw [Array.back?_eq_getElem?, Array.back]
        simp
      simp only [if_pos returns, last, Option.map_some, Option.getD_some]
    · simp only [if_neg returns]

/-! ## Beginnings -/

theorem new_eq (p : Program) (k : Config) :
    new p k = .ok { computer := ((Computer.new k).reset p.image).1, program := p } := by
  simp [new, Computer.ofImage, Computer.reset, Machine.reset_eq_powerOn, Machine.powerOn_eq,
    Memory.load, if_pos p.fits, Except.map]

theorem restart_eq (d : Debugger) :
    d.restart = ({ d with
      computer := (d.computer.reset d.program.image).1, frames := #[rootFrame] }, .ok ()) := by
  simp [restart, Computer.reset, Machine.reset_eq_powerOn, Machine.powerOn_eq, Memory.load,
    if_pos d.program.fits]

/-! ## Instructions -/

/-- The debugger takes an instruction for what the program did. -/
structure Faithful (e : Debugger) (c : Computer) : Prop where
  state : c.machine.programState =
    e.computer.machine.programState.execute e.computer.machine.programState.instruction
  halted : c.machine.halted = e.computer.machine.programState.instruction.halts
  entered : { e with computer := c }.frameChange = .entered ↔
    e.computer.machine.programState.calls = true
  returned : ∀ frame, { e with computer := c }.frameChange = .returned frame ↔
    e.computer.machine.programState.returns = true ∧ 1 < e.frames.size ∧
      e.frames.back? = some frame
  frames : { e with computer := c }.trackFrames.frames =
    if e.computer.machine.programState.calls then
      e.frames.push (frameOf e.program.labels e.computer.machine.programState)
    else if e.computer.machine.programState.returns ∧ 1 < e.frames.size then e.frames.pop
    else e.frames

theorem Executes.ready (h : Executes d cs e) (ready : d.computer.machine.Ready) :
    e.computer.machine.Ready :=
  h.invariant (P := fun c => c.machine.Ready) ready fun _ _ ready ok =>
    (Computer.completed_of_next ready ok).ready

theorem faithful_of_ready {c : Computer} (ready : e.computer.machine.Ready)
    (ok : e.computer.next = (c, .ok ())) : Faithful e c := by
  have done := Computer.completed_of_next ready ok
  exact ⟨done.state, done.halted, frameChange_entered_iff done, frameChange_returned_iff done,
    frames_of_completed done⟩

theorem Executes.call (h : Executes d cs e) (ready : e.computer.machine.Ready)
    (calls : e.computer.machine.programState.calls = true) :
    ∃ e', Executes d (cs ++ [.entered]) e' ∧
      e.computer.machine.Completed e'.computer.machine ∧
      e'.computer.machine.halted = false ∧
      e'.frames = e.frames.push (frameOf e.program.labels e.computer.machine.programState) := by
  obtain ⟨k, at_pc, -⟩ := ProgramState.calls_iff.1 calls
  obtain ⟨c, ok⟩ := Computer.next_ok ready (by rw [at_pc]; nofun)
  have done := Computer.completed_of_next ready ok
  have same := trackFrames_computer { e with computer := c }
  have executes := h.one ok
  rw [(frameChange_entered_iff done).2 calls] at executes
  refine ⟨_, executes, by rw [same]; exact done, ?_, by rw [frames_of_completed done, if_pos calls]⟩
  rw [same, done.halted, at_pc]
  rfl

theorem Executes.ret {frames : Array Frame} {frame : Frame} (h : Executes d cs e)
    (ready : e.computer.machine.Ready) (returns : e.computer.machine.programState.returns = true)
    (inner : e.frames = frames.push frame) (root : 0 < frames.size) :
    ∃ e', Executes d (cs ++ [.returned frame]) e' ∧
      e.computer.machine.Completed e'.computer.machine ∧ e'.frames = frames := by
  obtain ⟨k, at_pc, -⟩ := ProgramState.returns_iff.1 returns
  obtain ⟨c, ok⟩ := Computer.next_ok ready (by rw [at_pc]; nofun)
  have done := Computer.completed_of_next ready ok
  have same := trackFrames_computer { e with computer := c }
  have executes := h.one ok
  have deep : 1 < e.frames.size := by
    rw [inner, Array.size_push]
    omega
  have back : e.frames.back? = some frame := by rw [inner, Array.back?_push]
  have returned := (frameChange_returned_iff done frame).2 ⟨returns, deep, back⟩
  rw [returned] at executes
  refine ⟨_, executes, by rw [same]; exact done, ?_⟩
  simp only [trackFrames, returned]
  rw [inner, Array.pop_push]

/-! ## A program with a subroutine -/

open Computer in
/-- The program that calls a subroutine, which has a label. -/
def calling : Debugger where
  computer := ((Computer.new {}).reset subroutine).1
  program := { image := subroutine, labels := .ofList [("sub", 4)], fits := subroutine_fits }

theorem calling_calls :
    ∃ c, calling.computer.next = (c, .ok ()) ∧ calling.computer.machine.Completed c.machine ∧
      calling.computer.machine.programState.operandWord = 4 ∧
      calling.computer.machine.programState.calls = true := by
  have ready : calling.computer.machine.Ready := Machine.ready_powerOn Computer.subroutine
  obtain ⟨-, operand, calls⟩ := Computer.calls_subroutine (Computer.new {})
  obtain ⟨k, at_pc, -⟩ := calls_iff.1 calls
  have named : calling.computer.machine.programState.instruction.operation? ≠ some .daa := by
    rw [show calling.computer.machine.programState.instruction = .call k from at_pc]
    simp [Instruction.operation?]
  obtain ⟨c, ok⟩ := Computer.next_ok ready named
  exact ⟨c, ok, Computer.completed_of_next ready ok, operand, calls⟩

end Debugger

end Micro8080
