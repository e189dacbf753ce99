import Micro8080.Proofs.Machine.Safety
import Micro8080.Proofs.Program.Step

/-! # Calls of a computer

What a host can do to a computer is a list of calls, in any order and with any arguments.  However
long the list, the parts of the machine never contend, and the only error that ever comes back when
time passes is the refusal of the decimal adjustment (`safe_of_calls`).

The watcher stands for everything outside, a handler of system calls among it.  It takes part in no
argument here, since the machine does not look at it.
-/

namespace Micro8080.Computer

inductive Call where
  /-- Switch off and on again, with an image. -/
  | reset (image : Array UInt8)
  | pulseReset
  | halfTick
  | step
  /-- Run, for this many half-ticks at most. -/
  | run (budget : Nat)
  deriving DecidableEq, Repr

/-- Time passes during the call. -/
def Call.passesTime : Call → Bool
  | halfTick | step | run _ => true
  | reset _ | pulseReset => false

/-- The error that came back, if one did. -/
def error? {α : Type} : Except Fault α → Option Fault
  | .ok _ => none
  | .error fault => some fault

variable {ω : Type} (see : ω → Event → ω)

/-- The computer and its watcher after a call, and the error that came back. -/
def perform (c : Computer) (w : ω) : Call → Computer × ω × Option Fault
  | .reset image => ((c.reset image).1, w, error? (c.reset image).2)
  | .pulseReset => (c.pulseReset, w, none)
  | .halfTick => ((c.halfTick see w).1, (c.halfTick see w).2.1, error? (c.halfTick see w).2.2)
  | .step => ((c.step see w).1, (c.step see w).2.1, error? (c.step see w).2.2)
  | .run budget =>
    ((c.run see budget w).1, (c.run see budget w).2.1, error? (c.run see budget w).2.2)

/-- The computer and its watcher after a list of calls, whatever came back. -/
def performAll (c : Computer) (w : ω) : List Call → Computer × ω
  | [] => (c, w)
  | call :: calls => performAll (c.perform see w call).1 (c.perform see w call).2.1 calls

variable {c : Computer} {w : ω}

/-! ## Coherence -/

theorem error?_result {t : Moment} : error? t.result = t.fault := by
  simp only [error?, Moment.result]
  cases t.fault <;> rfl

/-- A call keeps the machine coherent.  An error that comes back while time passes is latched. -/
theorem perform_coherent (h : c.machine.Coherent) (call : Call) :
    (c.perform see w call).1.machine.Coherent ∧
      (call.passesTime = true → ∀ f, (c.perform see w call).2.2 = some f →
        (c.perform see w call).1.machine.fault = some f) := by
  cases call with
  | reset image => exact ⟨Machine.coherent_powerOn image, fun no => by cases no⟩
  | pulseReset => exact ⟨h.pulseReset, fun no => by cases no⟩
  | halfTick =>
    have sound := h.sound_halfTick
    refine ⟨sound.coherent, fun _ f raised => sound.latched f ?_⟩
    simpa only [perform, result_halfTick, error?_result] using raised
  | step =>
    have sound := h.sound_instruct
    simp only [perform, machine_step, result_step, error?_result]
    exact ⟨sound.coherent, fun _ => sound.latched⟩
  | run budget =>
    obtain ⟨coherent, latched⟩ := h.run (watch see c.config) budget (c.history, w)
    refine ⟨coherent, fun _ f raised => latched f ?_⟩
    simp only [perform, run, adopt, error?] at raised
    split at raised
    · cases raised
    · next fault failed => cases raised; exact failed

theorem performAll_coherent (h : c.machine.Coherent) (calls : List Call) :
    (c.performAll see w calls).1.machine.Coherent := by
  induction calls generalizing c w with
  | nil => exact h
  | cons call calls ih => exact ih (perform_coherent see h call).1

/-! ## Safety -/

/-- What holds of a computer that is safe to drive. -/
structure Safe (c : Computer) (w : ω) : Prop where
  /-- No two signals of the control word contend. -/
  exclusive : c.machine.sequencer.word.Exclusive
  /-- An error is the refusal of the decimal adjustment, by the tick of stage 3 under `0x27`. -/
  only : ∀ call f, call.passesTime = true → (c.perform see w call).2.2 = some f →
    f = .unsupportedOperation .daa ∧ (c.perform see w call).1.machine.Stuck
  /-- That tick, and no other half-tick, raises it. -/
  raised : c.machine.fault = none → c.machine.resetPending = false → ∀ f,
    (c.halfTick see w).2.2 = .error f ↔
      f = .unsupportedOperation .daa ∧ c.machine.clock.phase = .tick ∧
        c.machine.sequencer.stage = 3 ∧ c.machine.opcode = 0x27
  /-- Without the error the instruction is never got past. -/
  notPast : c.machine.fault = none → c.machine.opcode = 0x27 → 3 ≤ c.machine.sequencer.stage →
    c.machine.sequencer.stage = 3 ∧ c.machine.clock.phase = .tick
  /-- A step that begins with a fetch of `0x27` ends in the error. -/
  always : c.machine.fault = none → c.machine.resetPending = false →
    c.machine.clock.phase = .tock → c.machine.sequencer.atLast = true →
    c.machine.memory.read c.machine.pc = 0x27 →
    (c.step see w).2.2 = .error (.unsupportedOperation .daa)

/-- A computer is safe after any calls, from the moment it is switched on. -/
theorem safe_of_calls (k : Config) (calls : List Call) (w : ω) :
    Safe see ((new k).performAll see w calls).1 ((new k).performAll see w calls).2 := by
  have fresh : (new k).machine.Coherent := Machine.coherent_new
  have coherent := performAll_coherent see (w := w) fresh calls
  generalize (new k).performAll see w calls = t at coherent ⊢
  obtain ⟨c, w⟩ := t
  refine ⟨coherent.sequencer.lawful.toExclusive, ?_, ?_, ?_, ?_⟩
  · intro call f passes raised
    obtain ⟨after, latched⟩ := perform_coherent see coherent call
    have stuck := after.stuck (latched passes f raised)
    have same := (latched passes f raised).symm.trans stuck.fault
    cases same
    exact ⟨rfl, stuck⟩
  · intro running line f
    rw [← coherent.halfTick_fault_iff running line f, result_halfTick, Moment.result]
    cases c.machine.halfTick.fault <;> simp
  · intro _ opcode own
    exact coherent.not_past opcode own
  · intro running line phase atLast opcode
    have ready : c.machine.Ready := ⟨⟨running, line, phase, coherent.sequencer⟩, atLast⟩
    have named : c.machine.programState.instruction = .operateAccumulator .daa :=
      congrArg Instruction.decode opcode
    rw [result_step, Moment.result, ready.instruct_refused (by rw [named]; rfl)]

/-- The error comes back from a step at a program that begins with `0x27`. -/
theorem safe_of_calls_adjustment :
    (((new {}).performAll (fun _ _ => ()) () [.reset #[0x27]]).1.step (fun _ _ => ()) ()).2.2 =
      .error (.unsupportedOperation .daa) := by
  have start : ((new {}).performAll (fun _ _ => ()) () [.reset #[0x27]]).1.machine =
      (Machine.powerOn #[0x27]).1 := rfl
  have ready := Machine.ready_powerOn #[0x27]
  have opcode : (Machine.powerOn #[0x27]).1.memory.read (Machine.powerOn #[0x27]).1.pc = 0x27 := by
    rw [Machine.pc_powerOn, Machine.read_powerOn (by decide)]
    rfl
  rw [← start] at ready opcode
  exact (safe_of_calls (fun _ _ => ()) {} [.reset #[0x27]] ()).always ready.running ready.line
    ready.phase ready.atLast opcode

end Micro8080.Computer
