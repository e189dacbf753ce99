import Micro8080.Proofs.Machine.Coherence
import Micro8080.Proofs.Machine.Trace

/-! # Runs of a coherent machine

A run of half-ticks keeps a machine coherent, and a fault that ends it is latched: `Moment.Sound`.
It follows that the decimal adjustment is the only fault of any run, and that the machine in which
it is latched still stands before the tick that raised it (`Coherent.stuck`).
-/

namespace Micro8080

/-- A run ended in a coherent machine, with its fault latched if it raised one. -/
structure Moment.Sound (t : Moment) : Prop where
  coherent : t.machine.Coherent
  latched : ∀ f, t.fault = some f → t.machine.fault = some f

theorem Moment.Sound.andThen {t : Moment} {next : Machine → Moment} (h : t.Sound)
    (goes : ∀ m : Machine, m.Coherent → (next m).Sound) : (t.andThen next).Sound := by
  cases fault : t.fault with
  | some f =>
    rw [andThen_of_fault fault]
    exact h
  | none =>
    rw [andThen_of_ok fault]
    have sound := goes t.machine h.coherent
    exact ⟨sound.coherent, sound.latched⟩

namespace Machine

variable {m : Machine}

/-- The machine was stopped by the tick of stage 3, under the opcode `0x27`. -/
structure Stuck (m : Machine) : Prop where
  fault : m.fault = some (.unsupportedOperation .daa)
  phase : m.clock.phase = .tick
  stage : m.sequencer.stage = 3
  opcode : m.opcode = 0x27

theorem Coherent.stuck (h : m.Coherent) {f : Fault} (latched : m.fault = some f) : m.Stuck := by
  obtain ⟨rfl, asks⟩ := h.fault f latched
  obtain ⟨opcode, stage⟩ := h.sequencer.adjusts_iff.1 asks
  exact ⟨latched, h.refused asks, stage, opcode⟩

/-- A machine that no fault stopped is not past the decimal adjustment. -/
theorem Coherent.not_past (h : m.Coherent) (opcode : m.opcode = 0x27)
    (own : 3 ≤ m.sequencer.stage) : m.sequencer.stage = 3 ∧ m.clock.phase = .tick := by
  have at3 : m.sequencer.stage = 3 := by
    rcases h.sequencer.word_cases with ⟨fetching, -⟩ | ⟨-, p, d, decide, -, -⟩
    · omega
    · rw [opcode] at decide
      rcases Microcode.decision_cases decide with ⟨r, halts, -⟩ | ⟨-, at3, -⟩ | ⟨-, -, w, word, -⟩
      · cases halts
      · exact at3
      · have := (List.getElem?_eq_some_iff.1 word).1
        simp only [Microcode.decode_daa, Microcode.program, List.length_singleton] at this
        omega
  exact ⟨at3, h.refused (h.sequencer.adjusts_iff.2 ⟨opcode, at3⟩)⟩

/-! ## Runs -/

theorem Coherent.sound_halfTick (h : m.Coherent) : m.halfTick.Sound := by
  refine ⟨h.halfTick, fun f raised => ?_⟩
  cases latched : m.fault with
  | some e =>
    simp only [Machine.halfTick, latched, Option.some.injEq] at raised ⊢
    exact raised
  | none =>
    cases line : m.resetPending with
    | true => simp [Machine.halfTick, latched, line] at raised
    | false =>
      obtain ⟨rfl, -⟩ := (h.halfTick_fault_iff latched line f).1 raised
      simp only [Machine.halfTick, latched, line, Bool.false_eq_true, if_false] at raised ⊢
      cases fault : m.phaseMoment.fault with
      | none => simp [fault] at raised
      | some e =>
        simp only [fault, Option.some.injEq] at raised
        subst raised
        rfl

theorem Coherent.sound_pair (h : m.Coherent) : m.pair.Sound :=
  h.sound_halfTick.andThen fun _ coherent => coherent.sound_halfTick

theorem Coherent.sound_pairs (h : m.Coherent) (n : Nat) : (pairs n m).Sound := by
  induction n generalizing m with
  | zero => exact ⟨h, fun f impossible => by cases impossible⟩
  | succ n ih =>
    refine h.sound_pair.andThen fun k coherent => ?_
    split
    · exact ⟨coherent, fun f impossible => by cases impossible⟩
    · exact ih coherent

theorem Coherent.sound_instruct (h : m.Coherent) : m.instruct.Sound :=
  h.clearSkippedCall.sound_pairs maxStages

variable {ω : Type} (see : ω → Event → ω)

theorem Coherent.runOn (h : m.Coherent) (budget done : Nat) (w : ω) :
    (Machine.runOn see budget done m w).machine.Coherent ∧
      ∀ f, (Machine.runOn see budget done m w).result = .error f →
        (Machine.runOn see budget done m w).machine.fault = some f := by
  -- on the budget; a run that halts or fails before it is used up ends in the machine it has
  induction budget generalizing m done w with
  | zero => exact ⟨h, fun f impossible => by cases impossible⟩
  | succ budget ih =>
    have sound := h.sound_halfTick
    simp only [Machine.runOn, watchedHalfTick_eq, Moment.seen]
    split
    · exact ⟨h, fun f impossible => by cases impossible⟩
    · cases fault : m.halfTick.fault with
      | some e =>
        simp only [Moment.result, fault]
        refine ⟨sound.coherent, fun f raised => ?_⟩
        cases raised
        exact sound.latched e fault
      | none =>
        simp only [Moment.result, fault]
        exact ih sound.coherent (done + 1) _

theorem Coherent.run (h : m.Coherent) (budget : Nat) (w : ω) :
    (Machine.run see budget m w).machine.Coherent ∧
      ∀ f, (Machine.run see budget m w).result = .error f →
        (Machine.run see budget m w).machine.fault = some f := by
  obtain ⟨coherent, latched⟩ := h.runOn see budget 0 w
  simp only [Machine.run]
  split
  · next fault raised => exact ⟨coherent, fun f same => latched f (by cases same; exact raised)⟩
  · exact ⟨coherent, fun f impossible => by cases impossible⟩

end Machine

end Micro8080
