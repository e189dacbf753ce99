import Micro8080.Proofs.Machine.TwoPhase

/-! # Steps end

The loop of a step goes round, two half-ticks at a time, until the sequencer is at a last stage, and
counts nothing (`Machine.Loop`).  That `pairs` counts is no bound on it: whatever state a machine is
in, the loop is over after sixteen rounds at most (`Machine.loop_instruct`).

What makes it end is the stage.  Two half-ticks always have a tock among them, also when a reset
takes the first of the two, and a tock moves on by a stage (`Machine.follows_pair`).  No microprogram
gets past stage 15, so that a tock without a fault is at a last stage by then
(`Sequencer.decision_early`).
-/

namespace Micro8080

theorem Phase.eq_tick {p : Phase} (h : p ≠ .tock) : p = .tick := by
  cases p with
  | tick => rfl
  | tock => exact absurd rfl h

theorem Phase.eq_tock {p : Phase} (h : p ≠ .tick) : p = .tock := by
  cases p with
  | tock => rfl
  | tick => exact absurd rfl h

namespace Sequencer

variable {s t : Sequencer}

theorem decision_early {opcode : UInt8} {p : Microcode.Probe} {d : Microcode.Decision}
    (decide : s.decision opcode p = .ok d) (more : d.last = false) : s.stage ≤ 14 := by
  rcases Nat.lt_or_ge s.stage 3 with fetching | own
  · omega
  · rw [decision_of_own own] at decide
    have bound := (Microcode.decision_succ decide more own p).1
    have short := Microcode.program_length_le (.decode opcode)
    rw [Instruction.lastStage] at bound
    omega

/-- The sequencer `t` has decided on the stage after that of `s`. -/
structure Follows (s t : Sequencer) : Prop where
  stage : t.stage = s.fall.stage
  early : t.atLast = false → t.stage ≤ 14

theorem Follows.succ (h : s.Follows t) (more : s.atLast = false) (early : s.stage ≤ 14) :
    t.stage = s.stage + 1 := by
  have stage := h.stage
  simp only [fall, more, Bool.false_eq_true, if_false] at stage
  omega

end Sequencer

namespace Machine

variable {m : Machine} {n k : Nat} {t u : Moment}

/-! ## Two half-ticks -/

theorem follows_tock (ok : m.tock.fault = none) :
    m.sequencer.Follows m.tock.machine.sequencer := by
  obtain ⟨alu, d, registers, bus, fall, decide, drive, settle⟩ := tock_inv ok
  have early (more : d.last = false) := Sequencer.decision_early decide more
  rw [tock_eq fall decide drive settle]
  exact ⟨rfl, early⟩

theorem follows_of_tock (line : m.resetPending = false) (ok : m.halfTick.fault = none)
    (tock : m.clock.phase = .tock) : m.sequencer.Follows m.halfTick.machine.sequencer := by
  have fine := fault_phaseMoment line ok
  rw [phaseMoment, tock] at fine
  rw [halfTick_of_phase line ok, phaseMoment, tock]
  exact follows_tock fine

theorem sequencer_of_tick (line : m.resetPending = false) (ok : m.halfTick.fault = none)
    (tick : m.clock.phase = .tick) : m.halfTick.machine.sequencer = m.sequencer :=
  ((phases_halfTick line ok).2 tick).sequencer

theorem phase_halfTick (line : m.resetPending = false) (ok : m.halfTick.fault = none) :
    m.halfTick.machine.clock.phase ≠ m.clock.phase := by
  have clock := (halfTick_keeps ok).2.2.2
  rw [line] at clock
  rw [clock]
  exact m.clock.phase_advance

theorem pair_keeps (ok : m.pair.fault = none) :
    m.pair.machine.fault = none ∧ m.pair.machine.resetPending = false := by
  obtain ⟨first, second⟩ := Moment.fault_of_andThen ok
  obtain ⟨-, running, down, -⟩ := halfTick_keeps second
  rw [pair, Moment.machine_andThen_of_ok first]
  exact ⟨running, down⟩

/-- Two half-ticks have a tock among them, whichever of them it is. -/
theorem follows_pair (ok : m.pair.fault = none) :
    (if m.resetPending then {} else m.sequencer).Follows m.pair.machine.sequencer := by
  obtain ⟨first, second⟩ := Moment.fault_of_andThen ok
  obtain ⟨running, -, down, clock⟩ := halfTick_keeps first
  rw [pair, Moment.machine_andThen_of_ok first]
  cases line : m.resetPending with
  | true =>
    have cleared : m.halfTick.machine.sequencer = {} := by
      simp only [halfTick, running, line, if_true, clearParts]
    rw [line] at clock
    rw [if_pos rfl, ← cleared]
    exact follows_of_tock down second (by rw [clock]; rfl)
  | false =>
    have flips := phase_halfTick line first
    rw [if_neg Bool.false_ne_true]
    cases phase : m.clock.phase with
    | tock =>
      rw [phase] at flips
      rw [sequencer_of_tick down second (Phase.eq_tick flips)]
      exact follows_of_tock line first phase
    | tick =>
      rw [phase] at flips
      rw [← sequencer_of_tick line first phase]
      exact follows_of_tock down second (Phase.eq_tock flips)

/-! ## The loop -/

/-- The loop of a step that begins with the machine `m` goes round `n` times, and does `t`.  It ends
with a fault or at a last stage, and for no other reason. -/
inductive Loop : Nat → Machine → Moment → Prop
  | fails {m : Machine} {f : Fault} : m.pair.fault = some f → Loop 1 m m.pair
  | ends {m : Machine} : m.pair.fault = none → m.pair.machine.sequencer.atLast = true →
      Loop 1 m m.pair
  | goes {n : Nat} {m : Machine} {t : Moment} : m.pair.fault = none →
      m.pair.machine.sequencer.atLast = false → Loop n m.pair.machine t →
      Loop (n + 1) m (m.pair.andThen fun _ => t)

theorem Loop.unique (h : Loop n m t) (g : Loop k m u) : k = n ∧ u = t := by
  induction h generalizing k u with
  | fails raised =>
    cases g with
    | fails => exact ⟨rfl, rfl⟩
    | ends ok => exact absurd (raised.symm.trans ok) (Option.some_ne_none _)
    | goes ok => exact absurd (raised.symm.trans ok) (Option.some_ne_none _)
  | ends ok atLast =>
    cases g with
    | fails => exact ⟨rfl, rfl⟩
    | ends => exact ⟨rfl, rfl⟩
    | goes _ more => exact absurd (atLast.symm.trans more) (by decide)
  | goes ok more rest ih =>
    cases g with
    | fails raised => exact absurd (raised.symm.trans ok) (Option.some_ne_none _)
    | ends _ atLast => exact absurd (atLast.symm.trans more) (by decide)
    | goes _ _ rest' =>
      obtain ⟨rfl, rfl⟩ := ih rest'
      exact ⟨rfl, rfl⟩

theorem Loop.atLast (h : Loop n m t) (ok : t.fault = none) :
    t.machine.sequencer.atLast = true := by
  induction h with
  | fails raised => exact absurd (raised.symm.trans ok) (Option.some_ne_none _)
  | ends _ atLast => exact atLast
  | goes first more rest ih =>
    rw [Moment.fault_andThen_of_ok first] at ok
    rw [Moment.machine_andThen_of_ok first]
    exact ih ok

theorem loop_pairs_succ (rest : m.pair.fault = none → m.pair.machine.sequencer.atLast = false →
      ∃ k ≤ n, Loop k m.pair.machine (pairs n m.pair.machine)) :
    ∃ k ≤ n + 1, Loop k m (pairs (n + 1) m) := by
  cases raised : m.pair.fault with
  | some f =>
    rw [pairs_of_fault raised]
    exact ⟨1, Nat.le_add_left 1 n, .fails raised⟩
  | none =>
    cases atLast : m.pair.machine.sequencer.atLast with
    | true =>
      rw [pairs_of_last atLast]
      exact ⟨1, Nat.le_add_left 1 n, .ends raised atLast⟩
    | false =>
      obtain ⟨k, le, loop⟩ := rest raised atLast
      rw [pairs_of_more atLast, Moment.andThen_congr raised rfl]
      exact ⟨k + 1, Nat.succ_le_succ le, .goes raised atLast loop⟩

/-- In the middle of an instruction, what is left of the sixteen stages is enough. -/
theorem loop_pairs (line : m.resetPending = false) (more : m.sequencer.atLast = false)
    (early : m.sequencer.stage ≤ 14) (enough : 15 ≤ m.sequencer.stage + n) :
    ∃ k ≤ n, Loop k m (pairs n m) := by
  induction n generalizing m with
  | zero => omega
  | succ n ih =>
    refine loop_pairs_succ fun ok going => ?_
    have follows := follows_pair ok
    rw [line, if_neg Bool.false_ne_true] at follows
    have stage := follows.succ more early
    exact ih (pair_keeps ok).2 going (follows.early going) (by omega)

/-- Whatever the state of the machine, sixteen rounds are all that the loop of a step takes. -/
theorem loop_instruct (m : Machine) : ∃ n ≤ 16, Loop n (m.marked false) m.instruct :=
  loop_pairs_succ fun ok going =>
    loop_pairs (pair_keeps ok).2 going ((follows_pair ok).early going) (Nat.le_add_left 15 _)

end Machine

namespace Computer

variable {ω : Type} (see : ω → Event → ω)

/-- Whatever the state of a computer, a step does what its loop does, which ends after sixteen
rounds at most: at a last stage, or with an error. -/
theorem step_ends (c : Computer) (w : ω) :
    ∃ n t, Machine.Loop n (c.machine.marked false) t ∧ n ≤ 16 ∧
      (∀ k u, Machine.Loop k (c.machine.marked false) u → k = n ∧ u = t) ∧
      c.step see w = adopt c.config (t.seen (watch see c.config) (#[], w)) ∧
      ((c.step see w).2.2 = .ok () ∧ (c.step see w).1.machine.sequencer.atLast = true ∨
        ∃ f, (c.step see w).2.2 = .error f) := by
  obtain ⟨n, few, loop⟩ := c.machine.loop_instruct
  refine ⟨n, c.machine.instruct, loop, few, fun k u => loop.unique, ?_, ?_⟩
  · rw [step, Machine.step_eq]
  · rw [result_step, machine_step, Moment.result]
    cases raised : c.machine.instruct.fault with
    | none => exact .inl ⟨rfl, loop.atLast raised⟩
    | some f => exact .inr ⟨f, rfl⟩

end Computer

end Micro8080
