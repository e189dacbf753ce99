import Micro8080.Proofs.Machine.Likeness

/-! # The output latch

The output latch holds the value that was shown last.  No part of the machine looks at it, and it
changes only when a tick shows a value.  So a machine with another value in its latch runs alike
until both show a value, and is the same machine from there on (`likeness_echoes`).
-/

namespace Micro8080

/-- The machine with this value in its output latch. -/
def Machine.showing (m : Machine) (o : UInt8) : Machine := { m with out := o }

def Moment.showing (t : Moment) (o : UInt8) : Moment := { t with machine := t.machine.showing o }

namespace Machine

/-- The machines are the same, or one still shows `o` where the other one has shown nothing. -/
def Echoes (o : UInt8) (m n : Machine) : Prop := m = n ∨ (m = n.showing o ∧ n.out = 0)

variable {m n : Machine} {o : UInt8}

/-! ## Half-ticks -/

theorem settle_showing (m : Machine) (o : UInt8) (events : List Event) :
    (m.showing o).settle events = (m.settle events).showing o ∧
      (m.settle events).machine.out = m.out := by
  simp only [settle, showing]
  cases m.registers.settle m.sequencer.word with
  | error f => exact ⟨rfl, rfl⟩
  | ok registers =>
    dsimp only [busSources]
    cases Bus.settle m.sequencer.word _ with
    | error f => exact ⟨rfl, rfl⟩
    | ok bus => exact ⟨rfl, rfl⟩

theorem tock_showing (m : Machine) (o : UInt8) :
    (m.showing o).tock = m.tock.showing o ∧ m.tock.machine.out = m.out := by
  have fall : (m.showing o).alu.fall (m.showing o).sequencer.fall.word (m.showing o).bus =
      m.alu.fall m.sequencer.fall.word m.bus := rfl
  simp only [tock, fall]
  cases m.alu.fall m.sequencer.fall.word m.bus with
  | error f => exact ⟨rfl, rfl⟩
  | ok alu =>
    -- the probe does not read the latch, so that the decision is the same
    let n : Machine := { m with sequencer := m.sequencer.fall, alu }
    have decision : (n.showing o).sequencer.decision m.opcode (n.showing o).probe =
        n.sequencer.decision m.opcode n.probe := rfl
    simp only [n, showing] at decision ⊢
    simp only [decision]
    cases Sequencer.decision _ m.opcode _ with
    | error f => exact ⟨rfl, rfl⟩
    | ok d =>
      exact settle_showing
        { m with alu, sequencer := (m.sequencer.fall.adopt m.opcode (.ok d)).takeCall.2 } o
        ({ m with alu }.announce d.halt (m.sequencer.fall.adopt m.opcode (.ok d)).takeCall.1)

/-- A tick shows a value, whatever was shown before, or leaves the latch alone. -/
theorem tick_showing (m : Machine) (o : UInt8) :
    (m.showing o).tick = m.tick ∨
      ((m.showing o).tick = m.tick.showing o ∧ m.tick.machine.out = m.out) := by
  have word : (m.showing o).sequencer.word = m.sequencer.word := rfl
  have registers : (m.showing o).registers = m.registers := rfl
  have memory : (m.showing o).memory = m.memory := rfl
  have alu : (m.showing o).alu = m.alu := rfl
  have bus : (m.showing o).bus = m.bus := rfl
  simp only [tick, word, registers, memory, alu, bus]
  cases m.registers.rise m.sequencer.word m.bus with
  | error f => exact .inr ⟨rfl, rfl⟩
  | ok registers =>
    dsimp only
    cases m.memory.rise m.sequencer.word m.bus with
    | error f => exact .inr ⟨rfl, rfl⟩
    | ok memory =>
      dsimp only
      obtain ⟨alu, fault⟩ := m.alu.rise m.sequencer.word m.bus
      cases fault with
      | some f => exact .inr ⟨rfl, rfl⟩
      | none =>
        dsimp only
        cases m.sequencer.word.outputs with
        | true => exact .inl rfl
        | false => exact .inr ⟨rfl, rfl⟩

/-- The events of a phase show nothing of the latch. -/
theorem phaseMoment_echoes (h : Echoes o m n) :
    Echoes o m.phaseMoment.machine n.phaseMoment.machine ∧
      m.phaseMoment.events = n.phaseMoment.events ∧
      m.phaseMoment.fault = n.phaseMoment.fault := by
  obtain rfl | ⟨rfl, zero⟩ := h
  · exact ⟨.inl rfl, rfl, rfl⟩
  · have phase : (n.showing o).clock.phase = n.clock.phase := rfl
    simp only [phaseMoment, phase]
    cases n.clock.phase with
    | tock =>
      obtain ⟨same, kept⟩ := tock_showing n o
      rw [same]
      exact ⟨.inr ⟨rfl, kept.trans zero⟩, rfl, rfl⟩
    | tick =>
      obtain same | ⟨same, kept⟩ := tick_showing n o
      · rw [same]
        exact ⟨.inl rfl, rfl, rfl⟩
      · rw [same]
        exact ⟨.inr ⟨rfl, kept.trans zero⟩, rfl, rfl⟩

/-! ## Runs -/

theorem Echoes.map (h : Echoes o m n) (f : Machine → Machine)
    (apart : ∀ k p, f (k.showing p) = (f k).showing p) (keeps : ∀ k, (f k).out = k.out) :
    Echoes o (f m) (f n) := by
  obtain rfl | ⟨rfl, zero⟩ := h
  · exact .inl rfl
  · exact .inr ⟨apart n o, (keeps n).trans zero⟩

theorem Echoes.showing_eq (h : Echoes o m n) : m.showing n.out = n := by
  obtain rfl | ⟨rfl, -⟩ := h <;> rfl

theorem Echoes.halfTick (h : Echoes o m n) : m.halfTick.Alike (Echoes o) n.halfTick := by
  have latched : m.fault = n.fault := by obtain rfl | ⟨rfl, -⟩ := h <;> rfl
  have line : m.resetPending = n.resetPending := by obtain rfl | ⟨rfl, -⟩ := h <;> rfl
  obtain ⟨machine, events, fault⟩ := phaseMoment_echoes h
  have recording : List.Forall₂ (Echoes o) (m.phaseMoment.events.filterMap Event.completed?)
      (n.phaseMoment.events.filterMap Event.completed?) := by
    rw [events]
    exact List.forall₂_same.2 fun _ _ => .inl rfl
  simp only [Machine.halfTick, latched, line]
  cases n.fault with
  | some f => exact ⟨h, rfl, .nil, rfl⟩
  | none =>
    cases n.resetPending with
    | true => exact ⟨h.map clearParts (fun _ _ => rfl) fun _ => rfl, rfl, .nil, rfl⟩
    | false =>
      simp only [Bool.false_eq_true, if_false, fault]
      cases n.phaseMoment.fault with
      | some f =>
        refine ⟨?_, ?_, ?_, rfl⟩
        · exact machine.map (fun k => { k with fault := if f.latches then some f else none })
            (fun _ _ => rfl) fun _ => rfl
        · simp only [Moment.requests, List.filterMap_append, events]
          rfl
        · simp only [Moment.recording, List.filterMap_append]
          exact List.rel_append recording .nil
      | none =>
        refine ⟨?_, ?_, ?_, rfl⟩
        · exact machine.map (fun k => { k with clock := k.clock.advance }) (fun _ _ => rfl)
            fun _ => rfl
        · simp only [Moment.requests, List.filterMap_append, events]
          rfl
        · simp only [Moment.recording, List.filterMap_append]
          exact List.rel_append recording (.cons machine .nil)

theorem likeness_echoes (o : UInt8) : Likeness (Echoes o) where
  refl m := .inl rfl
  sequencer h := by obtain rfl | ⟨rfl, -⟩ := h <;> rfl
  pulseReset h := h.map pulseReset (fun _ _ => rfl) fun _ => rfl
  marked b h := h.map (marked · b) (fun _ _ => rfl) fun _ => rfl
  halfTick h := h.halfTick

end Machine

end Micro8080
