import Micro8080.Proofs.Computer.Calls
import Micro8080.Proofs.Machine.Timeline

/-! # Calls on the timeline

A host that answers system calls, and looks at nothing else, is a fold over the requests of the
machine.  Under such a host every call of a computer in which time passes is a number of half-ticks
of its machine, up to the marker of skipped calls, and so is every list of such calls
(`exists_halfTicks_of_calls`).
-/

namespace Micro8080

namespace Machine

variable {m : Machine} {f : Fault}

theorem marked_self (m : Machine) : m.marked m.sequencer.skippedCall = m := rfl

theorem halfTick_of_latched (latched : m.fault = some f) :
    m.halfTick = { machine := m, fault := some f } := by
  simp only [halfTick, latched]

theorem halfTicks_of_latched (latched : m.fault = some f) (k : Nat) :
    (m.halfTicks k).machine = m ∧ (m.halfTicks k).requests = [] := by
  have still := halfTick_of_latched latched
  cases k with
  | zero => exact ⟨rfl, rfl⟩
  | succ k =>
    rw [halfTicks_of_fault (f := f) (by rw [still]), still]
    exact ⟨rfl, rfl⟩

theorem instruct_of_latched (latched : m.fault = some f) :
    m.instruct = { machine := m.marked false, fault := some f } := by
  have still : (m.marked false).halfTick = { machine := m.marked false, fault := some f } :=
    halfTick_of_latched latched
  have pair : (m.marked false).pair = { machine := m.marked false, fault := some f } := by
    rw [Machine.pair, still, Moment.andThen_of_fault rfl]
  have first : m.instruct = pairs (15 + 1) (m.marked false) := rfl
  rw [first, pairs, pair, Moment.andThen_of_fault rfl]

theorem Coherent.sound_halfTicks (h : m.Coherent) (k : Nat) : (m.halfTicks k).Sound := by
  induction k generalizing m with
  | zero => exact ⟨h, fun f impossible => by cases impossible⟩
  | succ k ih => exact h.sound_halfTick.andThen fun n coherent => ih coherent

/-- Half-ticks after half-ticks, a fault between them or not, are half-ticks from the start. -/
theorem Coherent.exists_halfTicks (h : m.Coherent) (a b : Nat) :
    ∃ k, (m.halfTicks k).machine = ((m.halfTicks a).machine.halfTicks b).machine ∧
      (m.halfTicks k).requests =
        (m.halfTicks a).requests ++ ((m.halfTicks a).machine.halfTicks b).requests := by
  cases fault : (m.halfTicks a).fault with
  | none =>
    refine ⟨a + b, ?_, ?_⟩
    · rw [halfTicks_add, Moment.machine_andThen_of_ok fault]
    · rw [halfTicks_add, Moment.requests_andThen_of_ok fault]
  | some f =>
    obtain ⟨same, silent⟩ := halfTicks_of_latched ((h.sound_halfTicks a).latched f fault) b
    exact ⟨a, same.symm, by rw [silent, List.append_nil]⟩

end Machine

namespace Computer

variable {ω : Type} (answer : ω → SystemCall → Memory → ω)

/-- A host that answers system calls, and looks at nothing else. -/
def answering (w : ω) (e : Event) : ω :=
  match e.request? with
  | some (call, memory) => answer w call memory
  | none => w

def answered (w : ω) (requests : List (SystemCall × Memory)) : ω :=
  requests.foldl (fun w r => answer w r.1 r.2) w

theorem answered_append (w : ω) (rs qs : List (SystemCall × Memory)) :
    answered answer w (rs ++ qs) = answered answer (answered answer w rs) qs :=
  List.foldl_append

theorem foldl_answering (events : List Event) (w : ω) :
    events.foldl (answering answer) w = answered answer w (events.filterMap Event.request?) := by
  rw [answered, List.foldl_filterMap]
  congr
  funext w e
  simp only [answering]
  cases e.request? <;> rfl

theorem foldl_watch (see : ω → Event → ω) (k : Config) (events : List Event)
    (w : Array Snapshot × ω) : (events.foldl (watch see k) w).2 = events.foldl see w.2 := by
  induction events generalizing w with
  | nil => rfl
  | cons e events ih => exact ih (watch see k w e)

theorem foldl_watch_history (see : ω → Event → ω) (k : Config) (events : List Event)
    (w : Array Snapshot × ω) :
    (events.foldl (watch see k) w).1 = events.foldl (recorded k) w.1 := by
  induction events generalizing w with
  | nil => rfl
  | cons e events ih => exact ih (watch see k w e)

theorem seen_step (see : ω → Event → ω) (c : Computer) (w : ω) :
    (c.step see w).2.1 = c.machine.instruct.events.foldl see w := by
  rw [step, adopt, Machine.step_eq]
  exact foldl_watch _ _ _ _

theorem fresh_reset (c : Computer) (image : Array UInt8) :
    (c.reset image).1.machine.clock.halfTicks = 0 ∧ (c.reset image).1.machine.halted = false := by
  simp only [reset, Machine.reset_eq_powerOn, Machine.powerOn_eq]
  split <;> exact ⟨rfl, rfl⟩

variable (w : ω)

/-! ## Single calls -/

theorem watcher_halfTick (c : Computer) :
    (c.halfTick (answering answer) w).2.1 = answered answer w c.machine.halfTick.requests := by
  rw [Moment.requests, ← foldl_answering]
  exact foldl_watch _ _ _ _

theorem watcher_step (c : Computer) :
    (c.step (answering answer) w).2.1 = answered answer w c.machine.instruct.requests := by
  rw [Moment.requests, ← foldl_answering, seen_step]

variable {c : Computer}

theorem machine_run (see : ω → Event → ω) {budget k : Nat} (h : c.machine.StopsAfter budget k) :
    (c.run see budget w).1.machine = (c.machine.halfTicks k).machine := by
  simp only [run, adopt, Machine.run, Machine.runOn_eq _ h]
  cases (c.machine.halfTicks k).fault <;> rfl

theorem run_eq {budget k : Nat} (h : c.machine.StopsAfter budget k) :
    ∃ c', c.run (answering answer) budget w =
        (c', answered answer w (c.machine.halfTicks k).requests,
          match (c.machine.halfTicks k).fault with
          | none => .ok { halfTicks := k, halted := (c.machine.halfTicks k).machine.halted }
          | some f => .error f) ∧
      c'.machine = (c.machine.halfTicks k).machine := by
  refine ⟨(c.run (answering answer) budget w).1, ?_, machine_run w _ h⟩
  simp only [run, adopt, Machine.run, Machine.runOn_eq _ h, Nat.zero_add]
  rw [Moment.requests, ← foldl_answering]
  cases (c.machine.halfTicks k).fault with
  | some f => simp only [foldl_watch]
  | none =>
    cases (c.machine.halfTicks k).machine.halted <;>
      simp [foldl_watch, watch, answering, Event.request?]

theorem exists_instruct_eq (m : Machine) :
    ∃ k, m.instruct.Same (m.halfTicks k) := by
  obtain ⟨j, -, e⟩ := Machine.exists_pairs_eq Machine.maxStages (m.marked false)
  have same := Machine.same_halfTicks (2 * j) m false
  rw [← e] at same
  exact ⟨2 * j, same⟩

/-! ## Lists of calls -/

/-- A call in which time passes is a number of half-ticks. -/
theorem exists_halfTicks_of_call {call : Call} (passes : call.passesTime = true) :
    ∃ k b, (c.perform (answering answer) w call).1.machine =
        (c.machine.halfTicks k).machine.marked b ∧
      (c.perform (answering answer) w call).2.1 =
        answered answer w (c.machine.halfTicks k).requests := by
  cases call with
  | reset image => cases passes
  | pulseReset => cases passes
  | halfTick =>
    refine ⟨1, c.machine.halfTick.machine.sequencer.skippedCall, ?_, ?_⟩
    · rw [Machine.halfTicks_one, Machine.marked_self]
      rfl
    · rw [Machine.halfTicks_one, ← watcher_halfTick]
      rfl
  | step =>
    obtain ⟨k, same⟩ := exists_instruct_eq c.machine
    obtain ⟨b, machine⟩ := same.machine
    refine ⟨k, b, ?_, ?_⟩
    · rw [← machine, ← machine_step (answering answer) c w]
      rfl
    · rw [← same.requests, ← watcher_step]
      rfl
  | run budget =>
    obtain ⟨k, stops⟩ := c.machine.exists_stopsAfter budget
    obtain ⟨c', run, machine⟩ := run_eq answer w stops
    refine ⟨k, c'.machine.sequencer.skippedCall, ?_, ?_⟩
    · rw [← machine, Machine.marked_self, perform, run]
    · rw [perform, run]

theorem exists_halfTicks_of_calls (h : c.machine.Coherent) {calls : List Call}
    (passes : ∀ call ∈ calls, call.passesTime = true) :
    ∃ k b, (c.performAll (answering answer) w calls).1.machine =
        (c.machine.halfTicks k).machine.marked b ∧
      (c.performAll (answering answer) w calls).2 =
        answered answer w (c.machine.halfTicks k).requests := by
  induction calls generalizing c w with
  | nil => exact ⟨0, _, (Machine.marked_self _).symm, rfl⟩
  | cons call calls ih =>
    obtain ⟨a, b, machine, watcher⟩ :=
      exists_halfTicks_of_call answer w (passes call List.mem_cons_self)
    have coherent : (c.perform (answering answer) w call).1.machine.Coherent :=
      (perform_coherent (answering answer) h call).1
    obtain ⟨j, b', machine', watcher'⟩ :=
      ih (c.perform (answering answer) w call).2.1 coherent fun e mem =>
        passes e (List.mem_cons_of_mem _ mem)
    rw [machine] at machine' watcher'
    have same := Machine.same_halfTicks j (c.machine.halfTicks a).machine b
    obtain ⟨b'', reached⟩ := same.machine
    rw [reached] at machine'
    rw [same.requests] at watcher'
    obtain ⟨k, end_eq, requests⟩ := h.exists_halfTicks a j
    refine ⟨k, b', ?_, ?_⟩
    · rw [end_eq]
      exact machine'
    · rw [requests, answered_append, ← watcher]
      exact watcher'

end Computer

/-! ## What calls keep -/

/-- A fact about machines that holds after a reset, and that the reset line, the marker of skipped
calls and a half-tick keep. -/
structure Machine.Invariant (P : Machine → Prop) : Prop where
  powerOn : ∀ image, P (powerOn image).1
  pulseReset : ∀ m, P m → P m.pulseReset
  marked : ∀ m b, P m → P (m.marked b)
  halfTick : ∀ m, P m → P m.halfTick.machine

namespace Machine.Invariant

variable {P : Machine → Prop}

theorem halfTicks (inv : Invariant P) (k : Nat) {m : Machine} (h : P m) :
    P (m.halfTicks k).machine := by
  induction k generalizing m with
  | zero => exact h
  | succ k ih =>
    have next := inv.halfTick m h
    rw [Machine.halfTicks]
    cases fault : m.halfTick.fault with
    | some f =>
      rw [Moment.andThen_of_fault fault]
      exact next
    | none =>
      rw [Moment.machine_andThen_of_ok fault]
      exact ih next

variable {ω : Type} (see : ω → Event → ω)

theorem perform (inv : Invariant P) {c : Computer} (h : P c.machine) (w : ω)
    (call : Computer.Call) : P (c.perform see w call).1.machine := by
  cases call with
  | reset image => exact inv.powerOn image
  | pulseReset => exact inv.pulseReset _ h
  | halfTick => exact inv.halfTick _ h
  | step =>
    obtain ⟨j, -, pairs⟩ := exists_pairs_eq maxStages (c.machine.marked false)
    have reached : c.machine.instruct = (c.machine.marked false).halfTicks (2 * j) := pairs
    show P (c.step see w).1.machine
    rw [Computer.machine_step, reached]
    exact inv.halfTicks _ (inv.marked _ _ h)
  | run budget =>
    obtain ⟨k, stops⟩ := c.machine.exists_stopsAfter budget
    show P (c.run see budget w).1.machine
    rw [Computer.machine_run w see stops]
    exact inv.halfTicks _ h

theorem performAll (inv : Invariant P) {c : Computer} (h : P c.machine) (w : ω)
    (calls : List Computer.Call) : P (c.performAll see w calls).1.machine := by
  induction calls generalizing c w with
  | nil => exact h
  | cons call calls ih => exact ih (inv.perform see h w call) _

end Machine.Invariant

end Micro8080
