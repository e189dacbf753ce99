import Micro8080.Proofs.Machine.Safety

/-! # The timeline of a machine

However a machine is driven, it takes half-ticks, one after the other.  `halfTicks n` is a run of
`n` of them, which only a fault cuts short.  Steps and runs with a budget are such runs, so that
what remains to be said about them is how many half-ticks they take: `exists_pairs_eq` and
`runOn_eq`.

A step also clears the marker of skipped calls.  No part of the machine looks at that marker, and
machines that differ in nothing else run alike (`Moment.Same`).
-/

namespace Micro8080

/-- What an event asks of the host, with memory as it is then. -/
def Event.request? : Event → Option (SystemCall × Memory)
  | .systemCall call memory => some (call, memory)
  | _ => none

namespace Moment

/-- What a run asked of the host, in order. -/
def requests (t : Moment) : List (SystemCall × Memory) := t.events.filterMap Event.request?

variable {t u : Moment} {f g : Machine → Moment}

theorem andThen_assoc (t : Moment) (f g : Machine → Moment) :
    (t.andThen f).andThen g = t.andThen fun m => (f m).andThen g := by
  cases fault : t.fault with
  | some e => rw [andThen_of_fault fault, andThen_of_fault fault, andThen_of_fault fault]
  | none =>
    rw [andThen_of_ok fault, andThen_of_ok fault]
    cases next : (f t.machine).fault with
    | some e => simp only [andThen, next]
    | none => simp only [andThen, next, List.append_assoc]

theorem andThen_still (t : Moment) : (t.andThen fun m => { machine := m }) = t := by
  cases fault : t.fault with
  | some e => exact andThen_of_fault fault _
  | none => rw [andThen_of_ok fault]; simp [← fault]

theorem fault_andThen_of_ok (h : t.fault = none) (f : Machine → Moment) :
    (t.andThen f).fault = (f t.machine).fault := by
  rw [andThen_of_ok h]

theorem machine_andThen_of_ok (h : t.fault = none) (f : Machine → Moment) :
    (t.andThen f).machine = (f t.machine).machine := by
  rw [andThen_of_ok h]

theorem requests_andThen_of_ok (h : t.fault = none) (f : Machine → Moment) :
    (t.andThen f).requests = t.requests ++ (f t.machine).requests := by
  rw [andThen_of_ok h, requests, List.filterMap_append]
  rfl

theorem fault_of_andThen (h : (t.andThen f).fault = none) :
    t.fault = none ∧ (f t.machine).fault = none := by
  cases fault : t.fault with
  | some e =>
    rw [andThen_of_fault fault, fault] at h
    cases h
  | none => exact ⟨rfl, by rwa [fault_andThen_of_ok fault] at h⟩

theorem andThen_congr (h : t.fault = none) (e : f t.machine = g t.machine) :
    t.andThen f = t.andThen g := by
  rw [andThen_of_ok h, andThen_of_ok h, e]

theorem requests_andThen_prefix (t : Moment) (f : Machine → Moment) :
    t.requests <+: (t.andThen f).requests := by
  cases fault : t.fault with
  | some e =>
    have same : (t.andThen f).requests = t.requests := by rw [andThen_of_fault fault]
    exact same ▸ List.prefix_rfl
  | none =>
    rw [requests_andThen_of_ok fault]
    exact List.prefix_append ..

end Moment

namespace Machine

/-- At most `n` half-ticks, up to the first fault. -/
def halfTicks : Nat → Machine → Moment
  | 0, m => { machine := m }
  | n + 1, m => m.halfTick.andThen (halfTicks n)

variable {m n : Machine}

theorem halfTicks_add (a b : Nat) (m : Machine) :
    m.halfTicks (a + b) = (m.halfTicks a).andThen (halfTicks b) := by
  induction a generalizing m with
  | zero => rw [Nat.zero_add, halfTicks, Moment.andThen_of_ok rfl]; rfl
  | succ a ih =>
    have split : halfTicks (a + b) = fun k => (halfTicks a k).andThen (halfTicks b) :=
      funext fun k => ih k
    rw [Nat.add_right_comm, halfTicks, split, halfTicks, Moment.andThen_assoc]

theorem halfTicks_of_fault {f : Fault} (h : m.halfTick.fault = some f) (k : Nat) :
    m.halfTicks (k + 1) = m.halfTick := by
  rw [halfTicks, Moment.andThen_of_fault h]

theorem halfTicks_of_ok (h : m.halfTick.fault = none) (k : Nat) :
    m.halfTicks (k + 1) =
      { m.halfTick.machine.halfTicks k with
        events := m.halfTick.events ++ (m.halfTick.machine.halfTicks k).events } := by
  rw [halfTicks, Moment.andThen_of_ok h]

theorem halfTicks_one (m : Machine) : m.halfTicks 1 = m.halfTick :=
  m.halfTick.andThen_still

theorem pair_eq (m : Machine) : m.pair = m.halfTicks 2 := by
  rw [pair, halfTicks]
  exact congrArg _ (funext fun k => (halfTicks_one k).symm)

theorem halfTicks_succ (k : Nat) (m : Machine) :
    m.halfTicks (k + 1) = (m.halfTicks k).andThen halfTick := by
  rw [halfTicks_add]
  exact congrArg _ (funext halfTicks_one)

theorem halfTicks_succ_succ (k : Nat) (m : Machine) :
    m.halfTicks (k + 2) = (m.halfTicks k).andThen pair := by
  rw [halfTicks_add]
  exact congrArg _ (funext fun n => (pair_eq n).symm)

theorem halfTicks_cons {α : Type} (a : α) (as : List α) (m : Machine) :
    m.halfTicks (2 * (a :: as).length) = m.pair.andThen (halfTicks (2 * as.length)) := by
  have split : 2 * (a :: as).length = 2 + 2 * as.length := by
    rw [List.length_cons]
    omega
  rw [split, halfTicks_add, pair_eq]

/-! ## What half-ticks keep -/

/-- No half-tick but a reset touches the clock and the reset line, other than to count on. -/
theorem phaseMoment_keeps (m : Machine) :
    m.phaseMoment.machine.clock = m.clock ∧
      m.phaseMoment.machine.resetPending = m.resetPending ∧
      m.phaseMoment.machine.fault = m.fault := by
  simp only [phaseMoment]
  split
  · simp only [tock]
    split
    · exact ⟨rfl, rfl, rfl⟩
    · split
      · exact ⟨rfl, rfl, rfl⟩
      · simp only [settle]
        repeat' split
        all_goals exact ⟨rfl, rfl, rfl⟩
  · simp only [tick]
    repeat' split
    all_goals exact ⟨rfl, rfl, rfl⟩

theorem halfTick_keeps (ok : m.halfTick.fault = none) :
    m.fault = none ∧ m.halfTick.machine.fault = none ∧ m.halfTick.machine.resetPending = false ∧
      m.halfTick.machine.clock = if m.resetPending then {} else m.clock.advance := by
  obtain ⟨clock, line, fault⟩ := m.phaseMoment_keeps
  cases latched : m.fault with
  | some f => simp [halfTick, latched] at ok
  | none =>
    cases pending : m.resetPending with
    | true => simp only [halfTick, latched, pending, if_true, clearParts, and_self]
    | false =>
      cases raised : m.phaseMoment.fault with
      | some f => simp [halfTick, latched, pending, raised] at ok
      | none =>
        rw [halfTick_of_ok latched pending raised]
        exact ⟨rfl, fault.trans latched, line.trans pending, by rw [clock]; rfl⟩

theorem fault_phaseMoment (line : m.resetPending = false) (ok : m.halfTick.fault = none) :
    m.phaseMoment.fault = none := by
  have running := (halfTick_keeps ok).1
  cases raised : m.phaseMoment.fault with
  | none => rfl
  | some f => simp [halfTick, running, line, raised] at ok

/-- A half-tick that succeeds did what its phase asks for. -/
theorem halfTick_of_phase (line : m.resetPending = false) (ok : m.halfTick.fault = none) :
    m.halfTick =
      { machine := { m.phaseMoment.machine with clock := m.phaseMoment.machine.clock.advance }
        events := m.phaseMoment.events ++ [.completed m.phaseMoment.machine] } :=
  halfTick_of_ok (halfTick_keeps ok).1 line (fault_phaseMoment line ok)

theorem clock_of_fault {f : Fault} (raised : m.halfTick.fault = some f) :
    m.halfTick.machine.clock = m.clock := by
  obtain ⟨clock, -, -⟩ := m.phaseMoment_keeps
  simp only [halfTick] at raised ⊢
  split
  · rfl
  · split
    · simp_all
    · split
      · exact clock
      · simp_all

theorem fault_of_le {a b : Nat} (ok : (m.halfTicks b).fault = none) (le : a ≤ b) :
    (m.halfTicks a).fault = none := by
  have split := halfTicks_add a (b - a) m
  rw [Nat.add_sub_cancel' le] at split
  rw [split] at ok
  exact (Moment.fault_of_andThen ok).1

theorem clock_halfTicks {k : Nat} (line : m.resetPending = false)
    (ok : (m.halfTicks k).fault = none) :
    (m.halfTicks k).machine.clock.halfTicks = m.clock.halfTicks + k ∧
      (m.halfTicks k).machine.resetPending = false := by
  induction k generalizing m with
  | zero => exact ⟨rfl, line⟩
  | succ k ih =>
    rw [halfTicks] at ok ⊢
    obtain ⟨now, rest⟩ := Moment.fault_of_andThen ok
    obtain ⟨-, -, down, clock⟩ := halfTick_keeps now
    obtain ⟨later, still⟩ := ih down rest
    rw [line] at clock
    rw [Moment.machine_andThen_of_ok now, later, clock]
    exact ⟨Nat.add_right_comm _ 1 k, still⟩

theorem clock_le_halfTicks (line : m.resetPending = false) (k : Nat) :
    m.clock.halfTicks ≤ (m.halfTicks k).machine.clock.halfTicks := by
  induction k generalizing m with
  | zero => exact Nat.le_refl _
  | succ k ih =>
    cases fault : m.halfTick.fault with
    | some f => exact Nat.le_of_eq (by rw [halfTicks_of_fault fault, clock_of_fault fault])
    | none =>
      obtain ⟨-, -, down, clock⟩ := halfTick_keeps fault
      have later := ih down
      rw [clock, line] at later
      rw [halfTicks, Moment.machine_andThen_of_ok fault]
      exact Nat.le_trans (Nat.le_succ _) later

/-! ## Requests -/

theorem requests_tick (m : Machine) : m.tick.requests = [] := by
  simp only [tick, Moment.requests]
  repeat' split
  all_goals rfl

theorem requests_halfTick (running : m.fault = none) (line : m.resetPending = false) :
    m.halfTick.requests = m.phaseMoment.requests := by
  simp only [halfTick, running, line, Bool.false_eq_true, if_false]
  split <;> simp [Moment.requests, Event.request?]

/-- A tick asks for nothing, and neither does what may stand in for it. -/
theorem requests_of_tick (phase : m.clock.phase = .tick) : m.halfTick.requests = [] := by
  by_cases running : m.fault = none
  · cases line : m.resetPending with
    | true =>
      simp only [halfTick, running, line, if_true]
      rfl
    | false => rw [requests_halfTick running line, phaseMoment, phase, requests_tick]
  · obtain ⟨f, latched⟩ := Option.ne_none_iff_exists'.1 running
    simp only [halfTick, latched]
    rfl

theorem requests_prefix {a b : Nat} (le : a ≤ b) (m : Machine) :
    (m.halfTicks a).requests <+: (m.halfTicks b).requests := by
  have split := halfTicks_add a (b - a) m
  rw [Nat.add_sub_cancel' le] at split
  rw [split]
  exact Moment.requests_andThen_prefix _ _

/-! ## Steps -/

theorem pairs_of_fault {f : Fault} (raised : m.pair.fault = some f) (k : Nat) :
    pairs (k + 1) m = m.pair := by
  rw [pairs, Moment.andThen_of_fault raised]

theorem pairs_of_last (atLast : m.pair.machine.sequencer.atLast = true) (k : Nat) :
    pairs (k + 1) m = m.pair := by
  cases raised : m.pair.fault with
  | some f => exact pairs_of_fault raised k
  | none =>
    rw [pairs, Moment.andThen_congr (g := fun n => { machine := n }) raised (if_pos atLast),
      Moment.andThen_still]

theorem pairs_of_more (more : m.pair.machine.sequencer.atLast = false) (k : Nat) :
    pairs (k + 1) m = m.pair.andThen (pairs k) := by
  cases raised : m.pair.fault with
  | some f => rw [pairs_of_fault raised, Moment.andThen_of_fault raised]
  | none => rw [pairs, Moment.andThen_congr raised (if_neg (ne_true_of_eq_false more))]

theorem exists_pairs_eq (k : Nat) (m : Machine) :
    ∃ j ≤ k, pairs k m = m.halfTicks (2 * j) := by
  induction k generalizing m with
  | zero => exact ⟨0, Nat.le_refl _, rfl⟩
  | succ k ih =>
    cases last : m.pair.machine.sequencer.atLast with
    | true => exact ⟨1, Nat.le_add_left 1 k, (pairs_of_last last k).trans m.pair_eq⟩
    | false =>
      obtain ⟨j, le, rest⟩ := ih m.pair.machine
      refine ⟨j + 1, Nat.succ_le_succ le, ?_⟩
      have split : 2 * (j + 1) = 2 + 2 * j := by omega
      rw [pairs_of_more last, split, halfTicks_add, ← pair_eq]
      cases fault : m.pair.fault with
      | some f => rw [Moment.andThen_of_fault fault, Moment.andThen_of_fault fault]
      | none => exact Moment.andThen_congr fault rest

/-! ## Runs with a budget -/

/-- Before its `n`th half-tick is done, the machine neither fails nor rests. -/
def Busy (m : Machine) (n : Nat) : Prop :=
  ∀ j < n, (m.halfTicks j).fault = none ∧ (m.halfTicks j).machine.halted = false

/-- A run with this budget stops after `n` half-ticks. -/
structure StopsAfter (m : Machine) (budget n : Nat) : Prop where
  le : n ≤ budget
  busy : m.Busy n
  stops : n = budget ∨ (m.halfTicks n).fault ≠ none ∨ (m.halfTicks n).machine.halted = true

theorem Busy.mono {a b : Nat} (h : m.Busy b) (le : a ≤ b) : m.Busy a :=
  fun j lt => h j (Nat.lt_of_lt_of_le lt le)

theorem Busy.one (going : m.halted = false) : m.Busy 1 := by
  intro j lt
  cases (by omega : j = 0)
  exact ⟨rfl, going⟩

theorem Busy.append {a b : Nat} (h : m.Busy a) (ok : (m.halfTicks a).fault = none)
    (rest : (m.halfTicks a).machine.Busy b) : m.Busy (a + b) := by
  intro j lt
  by_cases before : j < a
  · exact h j before
  · obtain ⟨i, rfl⟩ := Nat.exists_eq_add_of_le (Nat.le_of_not_lt before)
    rw [halfTicks_add, Moment.fault_andThen_of_ok ok, Moment.machine_andThen_of_ok ok]
    exact rest i (by omega)

theorem Busy.two (going : m.halted = false) (ok : m.halfTick.fault = none)
    (still : m.halfTick.machine.halted = false) : m.Busy 2 := by
  rw [← halfTicks_one] at ok still
  exact (Busy.one going).append ok (Busy.one still)

theorem StopsAfter.tail {budget k : Nat} (h : m.StopsAfter (budget + 1) (k + 1))
    (ok : m.halfTick.fault = none) : m.halfTick.machine.StopsAfter budget k := by
  refine ⟨by have := h.le; omega, fun j lt => ?_, ?_⟩
  · simpa only [halfTicks_of_ok ok] using h.busy (j + 1) (by omega)
  · simpa only [halfTicks_of_ok ok, Nat.add_right_cancel_iff] using h.stops

theorem exists_stopsAfter (m : Machine) (budget : Nat) : ∃ n, m.StopsAfter budget n := by
  induction budget with
  | zero => exact ⟨0, Nat.le_refl _, fun j lt => by omega, .inl rfl⟩
  | succ budget ih =>
    obtain ⟨n, le, busy, stops⟩ := ih
    by_cases stopped : (m.halfTicks n).fault ≠ none ∨ (m.halfTicks n).machine.halted = true
    · exact ⟨n, by omega, busy, .inr stopped⟩
    · have all : n = budget := stops.resolve_right stopped
      obtain ⟨ok, going⟩ := not_or.1 stopped
      subst all
      refine ⟨n + 1, Nat.le_refl _, fun j lt => ?_, .inl rfl⟩
      rcases Nat.lt_succ_iff_lt_or_eq.1 lt with before | rfl
      · exact busy j before
      · exact ⟨Classical.not_not.1 ok, Bool.not_eq_true _ ▸ going⟩

variable {ω : Type} (see : ω → Event → ω)

theorem runOn_eq {budget k : Nat} (h : m.StopsAfter budget k) (done : Nat) (w : ω) :
    runOn see budget done m w =
      { machine := (m.halfTicks k).machine
        watcher := (m.halfTicks k).events.foldl see w
        result :=
          match (m.halfTicks k).fault with
          | none => .ok (done + k)
          | some f => .error f } := by
  induction k generalizing m budget done w with
  | zero =>
    cases budget with
    | zero => rfl
    | succ budget =>
      have halted : m.halted = true := by
        rcases h.stops with none | fails | halts
        · omega
        · exact absurd rfl fails
        · exact halts
      simp only [runOn, halted, if_true]
      rfl
  | succ k ih =>
    cases budget with
    | zero => exact absurd h.le (by omega)
    | succ budget =>
      have going : m.halted = false := (h.busy 0 (by omega)).2
      simp only [runOn, going, Bool.false_eq_true, if_false, watchedHalfTick_eq]
      cases fault : m.halfTick.fault with
      | some f => simp only [Moment.seen, Moment.result, fault, halfTicks_of_fault fault]
      | none =>
        have rest := ih (h.tail fault) (done + 1) (m.halfTick.events.foldl see w)
        simp only [Moment.seen, Moment.result, fault, rest, halfTicks_of_ok fault,
          List.foldl_append]
        cases (m.halfTick.machine.halfTicks k).fault with
        | some f => rfl
        | none => simp only [Outcome.mk.injEq, Except.ok.injEq, true_and]; omega

end Machine

/-! ## The marker of skipped calls -/

/-- The machine with this marker of skipped calls. -/
def Machine.marked (m : Machine) (b : Bool) : Machine :=
  { m with sequencer := { m.sequencer with skippedCall := b } }

/-- Two runs did the same, but for the marker of skipped calls. -/
structure Moment.Same (t u : Moment) : Prop where
  machine : ∃ b, t.machine = u.machine.marked b
  requests : t.requests = u.requests
  fault : t.fault = u.fault

theorem Moment.Same.andThen {t u : Moment} {f g : Machine → Moment} (h : t.Same u)
    (goes : ∀ (m : Machine) (b : Bool), (f (m.marked b)).Same (g m)) :
    (t.andThen f).Same (u.andThen g) := by
  cases fault : u.fault with
  | some e =>
    rw [andThen_of_fault fault, andThen_of_fault (h.fault.trans fault)]
    exact h
  | none =>
    have ok := h.fault.trans fault
    obtain ⟨b, machine⟩ := h.machine
    have next := goes u.machine b
    rw [← machine] at next
    refine ⟨?_, ?_, ?_⟩
    · rw [machine_andThen_of_ok ok, machine_andThen_of_ok fault]
      exact next.machine
    · rw [requests_andThen_of_ok ok, requests_andThen_of_ok fault, h.requests, next.requests]
    · rw [fault_andThen_of_ok ok, fault_andThen_of_ok fault, next.fault]

namespace Machine

theorem same_settle (m : Machine) (b : Bool) (events : List Event) :
    ((m.marked b).settle events).Same (m.settle events) := by
  simp only [settle, marked]
  cases m.registers.settle m.sequencer.word with
  | error f => exact ⟨⟨b, rfl⟩, rfl, rfl⟩
  | ok registers =>
    dsimp only [busSources]
    cases Bus.settle m.sequencer.word _ with
    | error f => exact ⟨⟨b, rfl⟩, rfl, rfl⟩
    | ok bus => exact ⟨⟨b, rfl⟩, rfl, rfl⟩

theorem same_tock (m : Machine) (b : Bool) : (m.marked b).tock.Same m.tock := by
  have fall : (m.marked b).alu.fall (m.marked b).sequencer.fall.word (m.marked b).bus =
      m.alu.fall m.sequencer.fall.word m.bus := rfl
  simp only [tock, fall]
  cases m.alu.fall m.sequencer.fall.word m.bus with
  | error f => exact ⟨⟨b, rfl⟩, rfl, rfl⟩
  | ok alu =>
    -- the decision does not look at the marker, but may set it
    let n : Machine := { m with sequencer := m.sequencer.fall, alu }
    have decision : (n.marked b).sequencer.decision m.opcode (n.marked b).probe =
        n.sequencer.decision m.opcode n.probe := rfl
    simp only [n, marked] at decision ⊢
    simp only [Sequencer.fall] at decision ⊢
    simp only [decision]
    cases Sequencer.decision _ m.opcode _ with
    | error f => exact ⟨⟨b, rfl⟩, rfl, rfl⟩
    | ok d =>
      exact same_settle
        { m with alu, sequencer := (m.sequencer.fall.adopt m.opcode (.ok d)).takeCall.2 }
        (b || d.skipsCall)
        ({ m with alu }.announce d.halt (m.sequencer.fall.adopt m.opcode (.ok d)).takeCall.1)

theorem same_tick (m : Machine) (b : Bool) : (m.marked b).tick.Same m.tick := by
  have word : (m.marked b).sequencer.word = m.sequencer.word := rfl
  have registers : (m.marked b).registers = m.registers := rfl
  have memory : (m.marked b).memory = m.memory := rfl
  have alu : (m.marked b).alu = m.alu := rfl
  have bus : (m.marked b).bus = m.bus := rfl
  simp only [tick, word, registers, memory, alu, bus]
  cases m.registers.rise m.sequencer.word m.bus with
  | error f => exact ⟨⟨b, rfl⟩, rfl, rfl⟩
  | ok registers =>
    dsimp only
    cases m.memory.rise m.sequencer.word m.bus with
    | error f => exact ⟨⟨b, rfl⟩, rfl, rfl⟩
    | ok memory =>
      dsimp only
      obtain ⟨alu, fault⟩ := m.alu.rise m.sequencer.word m.bus
      cases fault with
      | some f => exact ⟨⟨b, rfl⟩, rfl, rfl⟩
      | none =>
        dsimp only
        split
        · exact ⟨⟨b, rfl⟩, rfl, rfl⟩
        · exact ⟨⟨b, rfl⟩, rfl, rfl⟩

theorem same_halfTick (m : Machine) (b : Bool) : (m.marked b).halfTick.Same m.halfTick := by
  have moment : (m.marked b).phaseMoment.Same m.phaseMoment := by
    have phase : (m.marked b).clock.phase = m.clock.phase := rfl
    simp only [phaseMoment, phase]
    cases m.clock.phase with
    | tock => exact same_tock m b
    | tick => exact same_tick m b
  have latched : (m.marked b).fault = m.fault := rfl
  have line : (m.marked b).resetPending = m.resetPending := rfl
  simp only [halfTick, latched, line]
  cases m.fault with
  | some f => exact ⟨⟨b, rfl⟩, rfl, rfl⟩
  | none =>
    cases m.resetPending with
    | true => exact ⟨⟨false, rfl⟩, rfl, rfl⟩
    | false =>
      obtain ⟨⟨c, machine⟩, requests, fault⟩ := moment
      simp only [Moment.requests] at requests
      simp only [Bool.false_eq_true, if_false, fault, machine]
      cases m.phaseMoment.fault with
      | some f =>
        refine ⟨⟨c, rfl⟩, ?_, rfl⟩
        simp only [Moment.requests, List.filterMap_append, requests]
        rfl
      | none =>
        refine ⟨⟨c, rfl⟩, ?_, rfl⟩
        simp only [Moment.requests, List.filterMap_append, requests]
        rfl

theorem same_halfTicks (k : Nat) (m : Machine) (b : Bool) :
    ((m.marked b).halfTicks k).Same (m.halfTicks k) := by
  induction k generalizing m b with
  | zero => exact ⟨⟨b, rfl⟩, rfl, rfl⟩
  | succ k ih => exact (same_halfTick m b).andThen ih

theorem same_pairs (k : Nat) (m : Machine) (b : Bool) :
    (pairs k (m.marked b)).Same (pairs k m) := by
  induction k generalizing m b with
  | zero => exact ⟨⟨b, rfl⟩, rfl, rfl⟩
  | succ k ih =>
    have pair : (m.marked b).pair.Same m.pair := (same_halfTick m b).andThen same_halfTick
    refine pair.andThen fun n c => ?_
    have atLast : (n.marked c).sequencer.atLast = n.sequencer.atLast := rfl
    rw [atLast]
    split
    · exact ⟨⟨c, rfl⟩, rfl, rfl⟩
    · exact ih n c

end Machine

end Micro8080
