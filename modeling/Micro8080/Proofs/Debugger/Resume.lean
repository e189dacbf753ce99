import Micro8080.Proofs.Debugger.Run
import Micro8080.Proofs.Debugger.Single
import Micro8080.Proofs.Program.Midway
import Micro8080.Proofs.Program.Stages

/-! # Runs after a halt

A run of a computer looks for a rest before every half-tick, but a run under the debugger looks for
one only after an instruction.  So the rest that has ended a run does not keep the next one from
going on.  That run carries out whatever stands at the program counter, which is past the halt, and
an opcode that halts gives a second halt, one address further on (`run_after_halt`).

The machine stands between two instructions when it rests, and this is all that an instruction asks
of it.
-/

namespace Micro8080

namespace ProgramState

/-- What the instruction at the program counter gives as the reason if it halts. -/
def haltReason (s : ProgramState) : HaltReason :=
  if s.read s.pc = 0x76 then .instruction else .unimplemented (s.read s.pc) s.pc

variable {s : ProgramState}

theorem instruction_of_halts (halts : s.instruction.halts = true) :
    s.instruction = .halt ∨ s.instruction = .unimplemented (s.read s.pc) :=
  (Instruction.halts_decode_iff _).1 halts

theorem execute_of_halts (halts : s.instruction.halts = true) :
    s.execute s.instruction = s.past 1 := by
  rcases instruction_of_halts halts with at_pc | at_pc <;> rw [at_pc] <;> rfl

end ProgramState

theorem Computer.haltReason_of_next {c c' : Computer} (ready : c.machine.Ready)
    (halts : c.machine.programState.instruction.halts = true) (ok : c.next = (c', .ok ())) :
    c'.machine.haltReason = some c.machine.programState.haltReason := by
  have done := completed_of_next ready ok
  have reached : c'.machine = c.machine.instruct.machine := by rw [← machine_next, ok]
  have named : c.machine.programState.instruction.operation? ≠ some .daa :=
    operation_of_step ready (step_of_next ok)
  have cleared : (c.machine.marked false).Ready := ready.clearSkippedCall
  have resting : c'.machine.Resting := by
    rw [reached, ready.instruct_eq named]
    exact cleared.resting halts (by have := c.machine.programState.halfTicks_ge; omega)
      (Nat.le_refl _)
  have state := done.state
  rw [ProgramState.execute_of_halts halts] at state
  have pc : c'.machine.pc - 1 = c.machine.programState.pc := by
    have next : c'.machine.pc = c.machine.programState.pc + 1 := congrArg ProgramState.pc state
    rw [next, UInt16.add_sub_cancel]
  have opcode : c'.machine.opcode = c.machine.programState.read c.machine.programState.pc := by
    have source := resting.source
    rw [pc] at source
    have memory : c'.machine.memory.bytes = c.machine.programState.memory :=
      congrArg ProgramState.memory state
    rw [← source, ProgramState.read, ← memory]
    rfl
  rw [resting.reason, pc, opcode]
  rfl

namespace Debugger

variable {d e : Debugger} {cs : List FrameChange} {c : Computer} {mode : Mode}
  {target : Option Nat}

/-! ## Stops -/

theorem of_stopEvent?_halted {change : FrameChange} {reason : Option HaltReason} {pc : UInt16}
    (h : d.stopEvent? mode target change = some (.halted reason pc)) :
    d.computer.machine.halted = true ∧ d.computer.machine.haltReason = reason ∧
      d.computer.machine.pc = pc := by
  have at_break : d.breakpointEvent? ≠ some (.halted reason pc) := by
    simp only [breakpointEvent?]
    split <;> simp
  have general : d.stopEvent? mode target .unchanged = some (.halted reason pc) →
      d.computer.machine.halted = true ∧ d.computer.machine.haltReason = reason ∧
        d.computer.machine.pc = pc := by
    intro stops
    simp only [stopEvent?] at stops
    split at stops
    · next halted =>
      cases stops
      exact ⟨halted, rfl, rfl⟩
    · split at stops
      · next event found =>
        cases stops
        exact absurd found at_break
      · split at stops <;> cases stops
  cases change with
  | entered =>
    by_cases into : mode = .into
    · subst into
      exact general h
    · simp only [stopEvent?, if_neg into] at h
      exact absurd h at_break
  | returned frame =>
    simp only [stopEvent?] at h
    split at h
    · cases h
    · exact general h
  | unchanged => exact general h

/-- An instruction that halts is no branch, and stops every run. -/
theorem stops_of_halts (mode : Mode) (target : Option Nat) (ready : d.computer.machine.Ready)
    (halts : d.computer.machine.programState.instruction.halts = true)
    (ok : d.computer.next = (c, .ok ())) :
    { d with computer := c }.trackFrames = { d with computer := c } ∧
      { d with computer := c }.eventAfter? mode target =
        some (.halted (some d.computer.machine.programState.haltReason)
          (d.computer.machine.pc + 1)) := by
  have done := Computer.completed_of_next ready ok
  have still : { d with computer := c }.frameChange = .unchanged := by
    simp only [frameChange, done.opcode]
    rcases ProgramState.instruction_of_halts halts with at_pc | at_pc <;> rw [at_pc]
  have same : { d with computer := c }.trackFrames = { d with computer := c } := by
    simp only [trackFrames, still]
  have next : c.machine.pc = d.computer.machine.pc + 1 := by
    have state := done.state
    rw [ProgramState.execute_of_halts halts] at state
    exact congrArg ProgramState.pc state
  refine ⟨same, ?_⟩
  simp only [eventAfter?, still, same, stopEvent?, done.halted, halts, if_true, next,
    Computer.haltReason_of_next ready halts ok]

theorem eventAfter?_into (unset : d.breakpoints = [])
    (running : d.computer.machine.halted = false) :
    d.eventAfter? .into target = some (.step d.computer.machine.pc) := by
  have unstopped := breakpointEvent?_eq_none unset
  cases change : d.frameChange <;>
    simp [eventAfter?, change, stopEvent?, unstopped, trackFrames_computer, running]

/-! ## Runs from between two instructions -/

variable {ω : Type} (see : ω → Event → ω) {f : Fault}

theorem run_of_stops {event : StopEvent} (ok : d.computer.next = (c, .ok ()))
    (stops : { d with computer := c }.eventAfter? mode (d.initialTarget mode) = some event)
    (max : Nat) (w : ω) :
    (d.run see mode (max + 1) w).1 = { d with computer := c }.trackFrames ∧
      (d.run see mode (max + 1) w).2.2 = .ok { steps := 1, event } := by
  have result := runOn_of_stops see ok stops max 0 w
  have outcome := run_outcome see mode (max + 1) d w
  have ran : (d.run see mode (max + 1) w).2.2 = .ok { steps := 1, event } := result
  refine ⟨?_, ran⟩
  rw [ran] at outcome
  obtain ⟨cs, executes, length⟩ := outcome.executes
  exact (executes.unique (.one .none ok) length).2

theorem run_of_fails (mode : Mode) (fails : d.computer.next = (c, .error f)) (max : Nat) (w : ω) :
    (d.run see mode (max + 1) w).1 = { d with computer := c } ∧
      (d.run see mode (max + 1) w).2.2 = .error f := by
  obtain ⟨computer, result⟩ := d.computer.step_eq_next see w
  rw [fails] at computer result
  simp only [run, runOn]
  generalize d.computer.step see w = t at computer result ⊢
  obtain ⟨c', w', r⟩ := t
  cases computer
  cases result
  exact ⟨rfl, rfl⟩

theorem Outcome.steps_pos {max : Nat} {stop : Stop} (h : Outcome mode d (max + 1) e (.ok stop)) :
    0 < stop.steps := by
  cases h with
  | spent trails all => exact Nat.succ_pos max
  | stops trails within ok stops => exact Nat.succ_pos _

/-- The outcome of a run that begins with the instruction at the program counter, and looks at
nothing else: this is refused, or it halts and ends the run, or there may be others after it. -/
inductive Resumes (d : Debugger) : Debugger → Except Fault Stop → Prop where
  | refused {c : Computer}
      (adjusts : d.computer.machine.programState.instruction.operation? = some .daa)
      (fails : d.computer.next = (c, .error (.unsupportedOperation .daa))) :
      Resumes d { d with computer := c } (.error (.unsupportedOperation .daa))
  | rests {c : Computer} (ok : d.computer.next = (c, .ok ()))
      (done : d.computer.machine.Completed c.machine)
      (halts : d.computer.machine.programState.instruction.halts = true) :
      Resumes d { d with computer := c }
        (.ok
          { steps := 1
            event := .halted (some d.computer.machine.programState.haltReason)
              (d.computer.machine.pc + 1) })
  | goes {c : Computer} {cs : List FrameChange} {e : Debugger} {stop : Stop}
      (ok : d.computer.next = (c, .ok ())) (done : d.computer.machine.Completed c.machine)
      (going : d.computer.machine.programState.instruction.halts = false)
      (executes : Executes d cs e) (length : cs.length = stop.steps) (steps : 0 < stop.steps) :
      Resumes d e (.ok stop)
  | fails {c c' : Computer} {cs : List FrameChange} {e : Debugger} {f : Fault}
      (ok : d.computer.next = (c, .ok ())) (done : d.computer.machine.Completed c.machine)
      (going : d.computer.machine.programState.instruction.halts = false)
      (executes : Executes d cs e) (steps : 0 < cs.length)
      (fails : e.computer.next = (c', .error f)) :
      Resumes d { e with computer := c' } (.error f)

/-- Whether the machine rests does not matter. -/
theorem run_resumes (ready : d.computer.machine.Ready) (mode : Mode) (max : Nat) (w : ω) :
    Resumes d (d.run see mode (max + 1) w).1 (d.run see mode (max + 1) w).2.2 := by
  by_cases adjusts : d.computer.machine.programState.instruction.operation? = some .daa
  · have result := Computer.result_next d.computer
    rw [Moment.result, ready.instruct_refused adjusts] at result
    have fails : d.computer.next = (d.computer.next.1, .error (.unsupportedOperation .daa)) :=
      Prod.ext rfl result
    obtain ⟨reached, ran⟩ := run_of_fails see mode fails max w
    rw [reached, ran]
    exact .refused adjusts fails
  · obtain ⟨c, ok⟩ := Computer.next_ok ready adjusts
    have done := Computer.completed_of_next ready ok
    cases halts : d.computer.machine.programState.instruction.halts with
    | true =>
      obtain ⟨same, stops⟩ := stops_of_halts mode (d.initialTarget mode) ready halts ok
      obtain ⟨reached, ran⟩ := run_of_stops see ok stops max w
      rw [reached, ran, same]
      exact .rests ok done halts
    | false =>
      have outcome := run_outcome see mode (max + 1) d w
      generalize d.run see mode (max + 1) w = t at outcome ⊢
      obtain ⟨e, w', r⟩ := t
      cases r with
      | ok stop =>
        obtain ⟨cs, executes, length⟩ := outcome.executes
        exact .goes ok done halts executes length outcome.steps_pos
      | error f =>
        obtain ⟨cs, e', c', executes, fails, reached⟩ := outcome.failed
        have steps : 0 < cs.length := by
          rw [List.length_pos_iff]
          rintro rfl
          obtain ⟨-, rfl⟩ := executes.unique .none rfl
          rw [ok] at fails
          cases fails
        dsimp only at reached ⊢
        rw [reached]
        exact .fails ok done halts executes steps fails

/-! ## What a halt leaves -/

theorem rests_of_run {max n : Nat} {reason : Option HaltReason} {pc : UInt16} {w : ω}
    (halted : (d.run see mode max w).2.2 = .ok { steps := n, event := .halted reason pc }) :
    let m := (d.run see mode max w).1.computer.machine
    m.halted = true ∧ m.haltReason = reason ∧ m.pc = pc := by
  have outcome := run_outcome see mode max d w
  rw [halted] at outcome
  generalize (d.run see mode max w).1 = e at outcome ⊢
  cases outcome with
  | stops trails within ok stops => exact of_stopEvent?_halted stops

/-- A host that leaves the computer to the debugger finds a machine that rests between two
instructions. -/
theorem Attends.ready_of_halted (h : d.Attends) (halted : d.computer.machine.halted = true) :
    d.computer.machine.Ready := by
  rcases h.rests with ready | ⟨f, latched⟩
  · exact ready
  · rw [h.coherent.running_of_latched latched] at halted
    cases halted

/-! ## A program with a halt in the middle -/

/-- A halt, an increment of the accumulator, and another halt. -/
def halting : Debugger where
  computer := ((Computer.new {}).reset #[0x76, 0x3C, 0x76]).1
  program := { image := #[0x76, 0x3C, 0x76], labels := .ofList [], fits := by decide }

/-- The first run ends with the first halt, and comes back with the increment at the program
counter. -/
theorem halting_run :
    ∃ c, halting.run (fun _ _ => ()) .continue 10 () =
        ({ halting with computer := c }, (),
          .ok { steps := 1, event := .halted (some .instruction) 1 }) ∧
      c.machine.Ready ∧ c.machine.programState.pc = 1 ∧ c.machine.programState.acc = 0 ∧
      c.machine.programState.instruction = .stepRegister .a false := by
  have ready : halting.computer.machine.Ready := Machine.ready_powerOn #[0x76, 0x3C, 0x76]
  have opcode : halting.computer.machine.programState.read 0 = 0x76 :=
    Machine.read_powerOn halting.program.fits 0
  have next : halting.computer.machine.programState.read 1 = 0x3C :=
    Machine.read_powerOn halting.program.fits 1
  have pc : halting.computer.machine.programState.pc = 0 :=
    Machine.pc_powerOn #[0x76, 0x3C, 0x76]
  have acc : halting.computer.machine.programState.acc = 0 :=
    (Computer.cleared_reset (Computer.new {}) #[0x76, 0x3C, 0x76]).1
  have at_pc : halting.computer.machine.programState.instruction = .halt := by
    rw [ProgramState.instruction, pc, opcode]
    rfl
  have halts : halting.computer.machine.programState.instruction.halts = true := by
    rw [at_pc]
    rfl
  have reason : halting.computer.machine.programState.haltReason = .instruction := by
    rw [ProgramState.haltReason, pc, if_pos opcode]
  obtain ⟨c, ok⟩ := Computer.next_ok ready (by rw [at_pc]; simp [Instruction.operation?])
  have done := Computer.completed_of_next ready ok
  obtain ⟨same, stops⟩ := stops_of_halts .continue (halting.initialTarget .continue) ready halts ok
  obtain ⟨reached, ran⟩ := run_of_stops (fun (_ : Unit) _ => ()) ok stops 9 ()
  simp only [Nat.reduceAdd] at reached ran
  have state := done.state
  rw [ProgramState.execute_of_halts halts] at state
  have address : halting.computer.machine.pc = 0 := pc
  rw [reason, address, UInt16.zero_add] at ran
  refine ⟨c, Prod.ext (reached.trans same) (Prod.ext (Subsingleton.elim _ _) ran), done.ready,
    ?_, ?_, ?_⟩
  · rw [state, ProgramState.past, pc]
    rfl
  · rw [state]
    exact acc
  · rw [state, ProgramState.instruction, ProgramState.past, pc]
    exact congrArg Instruction.decode next

/-! ## Runs after a halt -/

/-- A run that reports a halt leaves a machine that rests, but the next run does not look for that.
Wherever a host has brought the debugger, and whatever the mode and the breakpoints are by then, the
next run takes an instruction or fails.  From between two instructions, where a host that leaves the
computer alone finds the machine, it carries out the one past the halt. -/
theorem run_after_halt (p : Program) (k : Config) :
    ∃ d₀, new p k = .ok d₀ ∧ ∀ (accesses : List Access) (w : ω),
      let d := (d₀.accessAll see w accesses).1
      ∀ (mode : Mode) (max : Nat) (v : ω) (e : Debugger) (v' : ω) (n : Nat)
        (reason : Option HaltReason) (pc : UInt16),
        d.run see mode max v = (e, v', .ok { steps := n, event := .halted reason pc }) →
        (e.computer.machine.halted = true ∧ e.computer.machine.haltReason = reason ∧
          e.computer.machine.pc = pc) ∧
        ((∀ a ∈ accesses, ∃ op, a = .operation op) → e.computer.machine.Ready) ∧
        ∀ (breakpoints : List UInt16) (mode' : Mode) (max' : Nat) (u : ω),
          let e' := { e with breakpoints }
          let t := e'.run see mode' (max' + 1) u
          (∀ stop, t.2.2 = .ok stop → 0 < stop.steps) ∧
          (e.computer.machine.Ready → Resumes e' t.1 t.2.2) := by
  let d₀ : Debugger := { computer := ((Computer.new k).reset p.image).1, program := p }
  have begins : d₀.Attends := attends_of_reset (Computer.new k) p.image rfl
  refine ⟨d₀, new_eq p k, ?_⟩
  intro accesses w d mode max v e v' n reason pc ran
  have halted : (d.run see mode max v).2.2 = .ok { steps := n, event := .halted reason pc } := by
    rw [ran]
  have rests := rests_of_run see halted
  rw [ran] at rests
  refine ⟨rests, ?_, ?_⟩
  · intro own
    have attends := attends_performAll see (accessAll_attends see begins w own) v [.run mode max]
    have reached : (d.performAll see v [.run mode max]).1 = e := congrArg Prod.fst ran
    rw [reached] at attends
    exact attends.ready_of_halted rests.1
  · intro breakpoints mode' max' u e' t
    refine ⟨?_, fun ready => run_resumes see (d := e') ready mode' max' u⟩
    intro stop stopped
    have outcome := run_outcome see mode' (max' + 1) e' u
    rw [stopped] at outcome
    exact outcome.steps_pos

theorem run_after_halt_increment :
    ∃ e, halting.run (fun _ _ => ()) .continue 10 () =
        (e, (), .ok { steps := 1, event := .halted (some .instruction) 1 }) ∧
      e.computer.machine.halted = true ∧
      Resumes e (e.run (fun _ _ => ()) .into 1 ()).1 (e.run (fun _ _ => ()) .into 1 ()).2.2 := by
  obtain ⟨d₀, begins, all⟩ := run_after_halt (fun (_ : Unit) _ => ()) halting.program {}
  rw [new_eq] at begins
  have same : halting = d₀ := Except.ok.inj begins
  rw [← same] at all
  obtain ⟨c, first, ready, -, -, -⟩ := halting_run
  obtain ⟨rests, -, goes⟩ := all [] () .continue 10 () _ () 1 (some .instruction) 1 first
  exact ⟨_, first, rests.1, (goes [] .into 0 ()).2 ready⟩

/-- After the halt the next run increments the accumulator. -/
theorem halted_run_goes_on :
    let see : Unit → Event → Unit := fun _ _ => ()
    new halting.program {} = .ok halting ∧
    ∃ e e', halting.run see .continue 10 () =
        (e, (), .ok { steps := 1, event := .halted (some .instruction) 1 }) ∧
      e.run see .into 1 () = (e', (), .ok { steps := 1, event := .step 2 }) ∧
      e.computer.machine.alu.acc = 0 ∧ e'.computer.machine.alu.acc = 1 := by
  intro see
  obtain ⟨c, first, ready, pc, acc, at_pc⟩ := halting_run
  obtain ⟨c', ok⟩ := Computer.next_ok ready (by rw [at_pc]; simp [Instruction.operation?])
  have done := Computer.completed_of_next ready ok
  have running : c'.machine.halted = false := by
    rw [done.halted, at_pc]
    rfl
  have state := done.state
  rw [at_pc] at state
  have reached : c'.machine.pc = 2 := by
    have next : c'.machine.pc = c.machine.programState.pc + 1 := congrArg ProgramState.pc state
    rw [next, pc]
    rfl
  have counted : c'.machine.alu.acc = 1 := by
    have sum : c'.machine.alu.acc = c.machine.programState.acc + 1 :=
      congrArg ProgramState.acc state
    rw [sum, acc]
    rfl
  obtain ⟨goes, ran⟩ := run_of_stops (d := { halting with computer := c }) see ok
    (eventAfter?_into rfl running) 0 ()
  rw [reached] at ran
  refine ⟨new_eq halting.program {}, _, _, first,
    Prod.ext goes (Prod.ext (Subsingleton.elim _ _) ran), acc, ?_⟩
  have same := trackFrames_computer { halting with computer := c' }
  exact (congrArg (fun c => c.machine.alu.acc) same).trans counted

end Debugger

end Micro8080
