import Micro8080.Proofs.Computer.Boundary
import Micro8080.Proofs.Computer.Timeline
import Micro8080.Proofs.Program.Ending
import Micro8080.Proofs.Program.Midway

/-! # Computers at rest

Any calls whatever leave a machine that rests if and only if its sequencer is at stage 3 of an
instruction that halts, be this the halt or an opcode without a meaning.  The words of an
instruction are told by its opcode, so that one direction is a matter of coherence alone.  For the
other, and for what a machine at rest shows of itself, the machine has to be found in the course of
an instruction (`Machine.Placed`), and after any calls it is.
-/

namespace Micro8080

namespace Machine

variable {m : Machine}

/-- Coherent, and in the course of an instruction unless a fault stopped it there. -/
structure Oriented (m : Machine) : Prop where
  coherent : m.Coherent
  placed : m.fault = none → m.Placed

theorem Ready.oriented (h : m.Ready) (coherent : m.Coherent) (going : m.halted = false) :
    m.Oriented :=
  ⟨coherent, fun _ => h.placed going⟩

theorem Coherent.marked (h : m.Coherent) (b : Bool) : (m.marked b).Coherent := by
  obtain ⟨sequencer, refused, fault⟩ := h
  refine ⟨?_, refused, fault⟩
  cases sequencer with
  | powerOn stage word atLast taken => exact .powerOn stage word atLast taken
  | decided decide word atLast taken => exact .decided decide word atLast taken

theorem oriented_new : ({} : Machine).Oriented := by
  obtain ⟨ready, going⟩ := ready_clearParts (m := {}) rfl
  exact ready.oriented coherent_new going

theorem invariant_oriented : Invariant Oriented where
  powerOn image := by
    have going : (powerOn image).1.halted = false := (Computer.fresh_reset (.new {}) image).2
    exact (ready_powerOn image).oriented (coherent_powerOn image) going
  pulseReset m h := ⟨h.coherent.pulseReset, fun running => (h.placed running).pulseReset⟩
  marked m b h := ⟨h.coherent.marked b, fun running => (h.placed running).marked b⟩
  halfTick m h := by
    refine ⟨h.coherent.halfTick, fun running => ?_⟩
    cases raised : m.halfTick.fault with
    | none => exact (h.placed (halfTick_keeps raised).1).halfTick raised
    | some f =>
      rw [(h.coherent.sound_halfTick).latched f raised] at running
      cases running

theorem Coherent.halted_of_halts (h : m.Coherent) (stage : m.sequencer.stage = 3)
    (halts : (Instruction.decode m.opcode).halts = true) : m.halted = true := by
  rcases h.sequencer.word_cases with ⟨fetching, -⟩ | ⟨-, p, d, decide, word, -⟩
  · omega
  · rw [halted, word, Microcode.decision_halts decide, halts]

theorem Oriented.resting_of_halted (h : m.Oriented) (rests : m.halted = true) : m.Resting := by
  have running : m.fault = none := by
    cases latched : m.fault with
    | none => rfl
    | some f =>
      rw [h.coherent.running_of_latched latched] at rests
      cases rests
  exact (h.placed running).resting_of_halted rests

theorem Oriented.halted_iff (h : m.Oriented) :
    m.halted = true ↔
      m.sequencer.stage = 3 ∧ (Instruction.decode m.opcode).halts = true := by
  constructor
  · intro rests
    have resting := h.resting_of_halted rests
    exact ⟨resting.stage, resting.halts⟩
  · rintro ⟨stage, halts⟩
    exact h.coherent.halted_of_halts stage halts

end Machine

namespace Computer

variable {ω : Type} (see : ω → Event → ω)

theorem oriented_performAll (k : Config) (calls : List Call) (w : ω) :
    ((new k).performAll see w calls).1.machine.Oriented :=
  Machine.invariant_oriented.performAll see (c := new k) Machine.oriented_new w calls

theorem completed_of_image (c : Computer) (image : Array UInt8) (fits : image.size ≤ 2048) (w : ω)
    {i : Instruction} (first : Instruction.decode (image[0]?.getD 0) = i)
    (named : i.operation? ≠ some .daa) :
    (Machine.powerOn image).1.programState.instruction = i ∧
      (Machine.powerOn image).1.Completed
        (c.performAll see w [.reset image, .step]).1.machine := by
  have at_pc : (Machine.powerOn image).1.programState.instruction = i :=
    (instruction_reset c fits).trans first
  have reached : (c.performAll see w [.reset image, .step]).1.machine =
      (Machine.powerOn image).1.instruct.machine := machine_step see (c.reset image).1 w
  refine ⟨at_pc, ?_⟩
  rw [reached]
  exact (Machine.ready_powerOn image).completed (by rwa [at_pc])

theorem machine_of_unimplemented (c : Computer) {image : Array UInt8} (fits : image.size ≤ 2048)
    (w : ω) {opcode : UInt8} (first : Instruction.decode (image[0]?.getD 0) = .unimplemented opcode) :
    let m := (c.performAll see w [.reset image, .step]).1.machine
    m.halted = true ∧ Instruction.decode m.opcode = .unimplemented opcode ∧ m.pc = 1 := by
  intro m
  obtain ⟨at_pc, completed⟩ := completed_of_image see c _ fits w first nofun
  have origin : (Machine.powerOn image).1.programState.pc = 0 := Machine.pc_powerOn image
  refine ⟨?_, completed.opcode.trans at_pc, ?_⟩
  · rw [completed.halted, at_pc]
    rfl
  · have pc := congrArg ProgramState.pc completed.state
    rw [at_pc, ProgramState.execute, ProgramState.past, origin] at pc
    exact pc

/-- After any calls, the machine rests if and only if it is at stage 3 of a halt or of an opcode
without a meaning.  The reason that it gives then is that of the opcode, which memory still holds
before the program counter.  Showing a value is never a rest, and a step that rests does nothing but
to move the program counter on. -/
theorem rests_after_calls (k : Config) (calls : List Call) (w : ω) :
    let m := ((new k).performAll see w calls).1.machine
    let i := Instruction.decode m.opcode
    (m.halted = true ↔ m.sequencer.stage = 3 ∧ (i = .halt ∨ i = .unimplemented m.opcode)) ∧
    (m.halted = true →
      m.haltReason =
        some (if m.opcode = 0x76 then .instruction else .unimplemented m.opcode (m.pc - 1)) ∧
      m.memory.read (m.pc - 1) = m.opcode) ∧
    (i = .output → m.halted = false) ∧
    ∀ (c : Computer) (w : ω), Boundary see c w →
      let s := c.machine.programState
      (s.instruction = .halt ∨ ∃ opcode, s.instruction = .unimplemented opcode) →
        StepsTo see c w (s.past 1) := by
  intro m i
  have oriented : m.Oriented := oriented_performAll see k calls w
  refine ⟨?_, ?_, ?_, ?_⟩
  · rw [oriented.halted_iff, Instruction.halts_decode_iff]
  · intro rests
    have resting := oriented.resting_of_halted rests
    exact ⟨resting.reason, resting.source⟩
  · intro output
    rw [Bool.eq_false_iff]
    intro rests
    have halts := (oriented.halted_iff.1 rests).2
    rw [show Instruction.decode m.opcode = .output from output] at halts
    cases halts
  · rintro c w boundary s (at_pc | ⟨opcode, at_pc⟩)
    · exact boundary.steps_of_eq at_pc nofun
    · exact boundary.steps_of_eq at_pc nofun

theorem rests_after_calls_unimplemented :
    let m := ((new {}).performAll (fun _ _ => ()) () [.reset #[0x08], .step]).1.machine
    m.halted = true ∧ m.haltReason = some (.unimplemented 0x08 0) := by
  -- for any image, so that nothing is evaluated but its first byte
  have any : ∀ (image : Array UInt8) (opcode : UInt8), image.size ≤ 2048 →
      Instruction.decode (image[0]?.getD 0) = .unimplemented opcode → opcode ≠ 0x76 →
      let m := ((new {}).performAll (fun _ _ => ()) () [.reset image, .step]).1.machine
      m.halted = true ∧ m.haltReason = some (.unimplemented opcode 0) := by
    intro image opcode fits first other m
    obtain ⟨rests, decoded, pc⟩ := machine_of_unimplemented (fun _ _ => ()) (new {}) fits () first
    obtain ⟨at_halt, shown, -⟩ := rests_after_calls (fun _ _ => ()) {} [.reset image, .step] ()
    have same : m.opcode = opcode := by
      rcases (at_halt.1 rests).2 with halt | unimplemented
      · exact absurd (halt.symm.trans decoded) nofun
      · exact Instruction.unimplemented.inj (unimplemented.symm.trans decoded)
    have reason := (shown rests).1
    rw [show ((new {}).performAll _ _ _).1.machine = m from rfl, same, if_neg other,
      show m.pc = 1 from pc] at reason
    exact ⟨rests, reason⟩
  exact any #[0x08] 0x08 (by decide) rfl (by decide)

end Computer

end Micro8080
