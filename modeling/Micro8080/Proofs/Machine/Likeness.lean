import Mathlib.Data.List.Forall2
import Micro8080.Proofs.Machine.Recording

/-! # Machines that run alike

A relation between machines is a likeness if every half-tick keeps it, and if the machines that it
relates agree in what decides how far a run goes.  Half-ticks in any number, steps and runs with a
budget keep it then as well: they stop at the same places, ask the host for the same, show like
machines, and raise the same fault (`Moment.Alike`).

What is the same in two machines at the start of any calls is so stated once, as a relation, and
shown for one half-tick only.
-/

namespace Micro8080

/-- Two runs ask the host for the same, show like machines, and end in like machines and with the
same fault. -/
structure Moment.Alike (R : Machine → Machine → Prop) (t u : Moment) : Prop where
  machine : R t.machine u.machine
  requests : t.requests = u.requests
  recording : List.Forall₂ R t.recording u.recording
  fault : t.fault = u.fault

variable {R : Machine → Machine → Prop}

theorem Moment.Alike.andThen {t u : Moment} {f g : Machine → Moment} (h : t.Alike R u)
    (goes : ∀ m n, R m n → (f m).Alike R (g n)) : (t.andThen f).Alike R (u.andThen g) := by
  cases fault : u.fault with
  | some e =>
    rw [andThen_of_fault fault, andThen_of_fault (h.fault.trans fault)]
    exact h
  | none =>
    have ok := h.fault.trans fault
    have next := goes _ _ h.machine
    refine ⟨?_, ?_, ?_, ?_⟩
    · rw [machine_andThen_of_ok ok, machine_andThen_of_ok fault]
      exact next.machine
    · rw [requests_andThen_of_ok ok, requests_andThen_of_ok fault, h.requests, next.requests]
    · rw [recording_andThen_of_ok ok, recording_andThen_of_ok fault]
      exact List.rel_append h.recording next.recording
    · rw [fault_andThen_of_ok ok, fault_andThen_of_ok fault, next.fault]

namespace Machine

/-- A relation between machines that all a host can do keeps. -/
structure Likeness (R : Machine → Machine → Prop) : Prop where
  refl : ∀ m, R m m
  /-- Like machines are at the same stage of the same instruction, under the same word. -/
  sequencer : ∀ {m n}, R m n → m.sequencer = n.sequencer
  pulseReset : ∀ {m n}, R m n → R m.pulseReset n.pulseReset
  marked : ∀ {m n} b, R m n → R (m.marked b) (n.marked b)
  halfTick : ∀ {m n}, R m n → m.halfTick.Alike R n.halfTick

namespace Likeness

variable {m n : Machine}

theorem rest (h : R m n) : Moment.Alike R { machine := m } { machine := n } :=
  ⟨h, rfl, .nil, rfl⟩

theorem halfTicks (like : Likeness R) (k : Nat) (h : R m n) :
    (m.halfTicks k).Alike R (n.halfTicks k) := by
  induction k generalizing m n with
  | zero => exact rest h
  | succ k ih => exact (like.halfTick h).andThen fun _ _ next => ih next

theorem pairs (like : Likeness R) (k : Nat) (h : R m n) :
    (Machine.pairs k m).Alike R (Machine.pairs k n) := by
  induction k generalizing m n with
  | zero => exact rest h
  | succ k ih =>
    have pair : m.pair.Alike R n.pair :=
      (like.halfTick h).andThen fun _ _ next => like.halfTick next
    refine pair.andThen fun m n next => ?_
    rw [like.sequencer next]
    split
    · exact rest next
    · exact ih next

theorem instruct (like : Likeness R) (h : R m n) : m.instruct.Alike R n.instruct :=
  like.pairs maxStages (like.marked false h)

theorem stopsAfter (like : Likeness R) (h : R m n) {budget k : Nat}
    (stops : m.StopsAfter budget k) : n.StopsAfter budget k := by
  have fault (j : Nat) : (m.halfTicks j).fault = (n.halfTicks j).fault :=
    (like.halfTicks j h).fault
  have halted (j : Nat) : (m.halfTicks j).machine.halted = (n.halfTicks j).machine.halted := by
    rw [Machine.halted, like.sequencer (like.halfTicks j h).machine, Machine.halted]
  obtain ⟨le, busy, stops⟩ := stops
  refine ⟨le, fun j lt => ?_, ?_⟩
  · rw [← fault, ← halted]
    exact busy j lt
  · rw [← fault, ← halted]
    exact stops

end Likeness

/-- Machines that do not differ at all. -/
theorem likeness_eq : Likeness (· = ·) where
  refl _ := rfl
  sequencer h := by rw [h]
  pulseReset h := by rw [h]
  marked b h := by rw [h]
  halfTick h := by
    subst h
    exact ⟨rfl, rfl, List.forall₂_same.2 fun _ _ => rfl, rfl⟩

end Machine

end Micro8080
