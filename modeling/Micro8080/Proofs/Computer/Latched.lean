import Micro8080.Proofs.Computer.Boundary
import Micro8080.Proofs.Computer.Timeline
import Micro8080.Proofs.Program.Ending

/-! # Latched faults

A machine that a fault has stopped stays where it is until it is switched off and on again.  Every
call that lets time pass returns the fault, and what calls can still do is to raise the reset line,
to clear the marker of skipped calls and to empty the history (`Computer.touched`).

A run looks for a halt before it looks for anything else, and a run that finds one returns no error.
So the fault comes back from a run only because a machine that a fault has stopped is never at rest:
it still holds the word of the decimal adjustment (`Coherent.running_of_latched`).
-/

namespace Micro8080

namespace Computer

/-- The computer after calls that find a fault latched, a reset not among them. -/
def touched (c : Computer) (calls : List Call) : Computer :=
  { c with
    machine :=
      { c.machine with
        resetPending := if .pulseReset ∈ calls then true else c.machine.resetPending
        sequencer :=
          { c.machine.sequencer with
            skippedCall := if .step ∈ calls then false else c.machine.sequencer.skippedCall } }
    history := if .step ∈ calls then #[] else c.history }

variable {c : Computer} {ω : Type} (see : ω → Event → ω) (w : ω) {f : Fault}

theorem touched_eq_self {call : Call} (pulse : call ≠ .pulseReset) (step : call ≠ .step) :
    c.touched [call] = c := by
  simp [touched, pulse.symm, step.symm]

theorem touched_cons (c : Computer) (call : Call) (calls : List Call) :
    (c.touched [call]).touched calls = c.touched (call :: calls) := by
  by_cases pulse : .pulseReset ∈ calls <;> by_cases step : .step ∈ calls <;>
    simp [touched, pulse, step]

/-- The reset line and a cleared history are all that a call leaves. -/
theorem perform_of_latched (h : c.machine.Coherent) (latched : c.machine.fault = some f)
    {call : Call} (keeps : ∀ image, call ≠ .reset image) :
    c.perform see w call =
      (c.touched [call], w, if call = .pulseReset ∨ call = .run 0 then none else some f) := by
  cases call with
  | reset image => exact absurd rfl (keeps image)
  | pulseReset => rfl
  | halfTick =>
    have still := Machine.halfTick_of_latched latched
    rw [touched_eq_self (by simp) (by simp)]
    simp only [perform, halfTick, adopt, Machine.watchedHalfTick, still]
    rfl
  | step =>
    have still := Machine.instruct_of_latched latched
    simp only [perform, step, adopt, Machine.step_eq, still]
    rfl
  | run budget =>
    have running := h.running_of_latched latched
    have still := Machine.halfTick_of_latched latched
    rw [touched_eq_self (by simp) (by simp)]
    cases budget with
    | zero =>
      simp only [perform, run, adopt, Machine.run, Machine.runOn, running]
      rfl
    | succ budget =>
      simp only [perform, run, adopt, Machine.run, Machine.runOn, running, Bool.false_eq_true,
        if_false, Machine.watchedHalfTick, still]
      simp [error?]

theorem performAll_of_latched (h : c.machine.Coherent) (latched : c.machine.fault = some f)
    {calls : List Call} (keeps : ∀ call ∈ calls, ∀ image, call ≠ .reset image) :
    c.performAll see w calls = (c.touched calls, w) := by
  induction calls generalizing c with
  | nil => rfl
  | cons call calls ih =>
    have first := perform_of_latched see w h latched (keeps call List.mem_cons_self)
    have coherent := (perform_coherent see (w := w) h call).1
    rw [first] at coherent
    rw [performAll, first, ← touched_cons c call calls]
    apply ih coherent latched
    intro other mem
    exact keeps other (List.mem_cons_of_mem _ mem)

theorem fault_of_refused (coherent : c.machine.Coherent) (ready : c.machine.Ready)
    (named : c.machine.programState.instruction.operation? = some .daa) :
    (c.perform see w .step).1.machine.fault = some (.unsupportedOperation .daa) := by
  have raised : (c.perform see w .step).2.2 = some (.unsupportedOperation .daa) := by
    rw [perform, result_step, error?_result]
    exact ready.instruct_refused named
  exact (perform_coherent see coherent .step).2 rfl _ raised

theorem fault_of_adjustment (c : Computer) {image : Array UInt8} (fits : image.size ≤ 2048)
    (first : image[0]?.getD 0 = 0x27) :
    (c.performAll see w [.reset image, .step]).1.machine.fault =
      some (.unsupportedOperation .daa) := by
  have at_pc : (c.reset image).1.machine.programState.instruction = .operateAccumulator .daa := by
    rw [instruction_reset c fits, first]
    rfl
  exact fault_of_refused see w (c := (c.reset image).1) (Machine.coherent_powerOn image)
    (Machine.ready_powerOn image) (by rw [at_pc]; rfl)

/-- Once a fault is latched, every call in which time passes returns it, however many others came
before, and no call but a reset changes more than the reset line, the marker of skipped calls and
the history.  A reset with an image that fits always leaves a machine without a fault. -/
theorem stopped_until_reset (k : Config) (calls : List Call) (w : ω) {f : Fault}
    (latched : ((new k).performAll see w calls).1.machine.fault = some f) :
    let c := ((new k).performAll see w calls).1
    (∀ (v : ω) (later : List Call), (∀ call ∈ later, ∀ image, call ≠ .reset image) →
      c.performAll see v later = (c.touched later, v) ∧
      ∀ call, call.passesTime = true → call ≠ .run 0 →
        ((c.touched later).perform see v call).2.2 = some f) ∧
    (∀ (v : ω) call, (c.perform see v call).1.machine.fault ≠ some f → ∃ image, call = .reset image) ∧
    ∀ (c' : Computer) (image : Array UInt8), image.size ≤ 2048 →
      (c'.reset image).1.machine.fault = none ∧ (c'.reset image).2 = .ok () := by
  intro c
  have coherent : c.machine.Coherent := performAll_coherent see Machine.coherent_new calls
  have at_rest (v : ω) {later : List Call}
      (keeps : ∀ call ∈ later, ∀ image, call ≠ .reset image) :
      (c.touched later).machine.Coherent ∧ c.performAll see v later = (c.touched later, v) := by
    have same := performAll_of_latched see v coherent latched keeps
    have later := performAll_coherent see (w := v) coherent later
    rw [same] at later
    exact ⟨later, same⟩
  refine ⟨?_, ?_, ?_⟩
  · intro v later keeps
    obtain ⟨still, same⟩ := at_rest v keeps
    refine ⟨same, ?_⟩
    intro call passes asks
    have other : ∀ image, call ≠ .reset image := by
      rintro image rfl
      cases passes
    have stopped : (c.touched later).machine.fault = some f := latched
    rw [perform_of_latched see v still stopped other, if_neg]
    rintro (rfl | none)
    · cases passes
    · exact asks none
  · intro v call cleared
    cases call with
    | reset image => exact ⟨image, rfl⟩
    | _ =>
      rw [perform_of_latched see v coherent latched (by nofun)] at cleared
      exact absurd latched cleared
  · intro c' image fits
    simp [reset, Machine.reset_eq_powerOn, Machine.powerOn_eq, Memory.load, Memory.capacity, fits]

theorem stopped_until_reset_adjustment :
    let c := ((new {}).performAll (fun _ _ => ()) () [.reset #[0x27], .step]).1
    c.machine.fault = some (.unsupportedOperation .daa) ∧
      ((c.touched [.pulseReset, .run 1000]).perform (fun _ _ => ()) () .step).2.2 =
        some (.unsupportedOperation .daa) := by
  have fits : (#[0x27] : Array UInt8).size ≤ 2048 := by decide
  have latched := fault_of_adjustment (fun _ _ => ()) () (new {}) fits rfl
  obtain ⟨stays, -⟩ := stopped_until_reset (fun _ _ => ()) {} [.reset #[0x27], .step] () latched
  refine ⟨latched, (stays () [.pulseReset, .run 1000] ?_).2 .step rfl nofun⟩
  intro call mem image
  rintro rfl
  simp at mem

end Computer

end Micro8080
