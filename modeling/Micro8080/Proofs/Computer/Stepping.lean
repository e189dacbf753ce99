import Micro8080.Proofs.Computer.Boundary
import Micro8080.Proofs.Computer.Timeline
import Micro8080.Proofs.Program.Timing

/-! # Stepping and running

A program can be driven to its end in two ways: by a loop of steps that looks for a halt between
two instructions, and by one run with a budget, which looks after every half-tick.  Both come to
the same end, or to none (`run_and_stepping`).  A halt shows as soon as it is decided, so that the
run stops one half-tick before the loop does; that half-tick only passes.

Both are compared with the timeline of the machine: `Stops` says where it first rests or fails.
-/

namespace Micro8080

namespace Machine

variable {m : Machine}

/-- After `n` half-ticks, and not before, the machine rests or fails. -/
structure Stops (m : Machine) (n : Nat) : Prop where
  busy : m.Busy n
  stops : (m.halfTicks n).fault ≠ none ∨ (m.halfTicks n).machine.halted = true

theorem Stops.not_busy {n k : Nat} (h : m.Stops n) (lt : n < k) : ¬ m.Busy k := by
  intro busy
  obtain ⟨ok, going⟩ := busy n lt
  rcases h.stops with fails | rests
  · exact fails ok
  · rw [going] at rests
    cases rests

theorem Stops.unique {n k : Nat} (h : m.Stops n) (g : m.Stops k) : n = k := by
  rcases Nat.lt_trichotomy n k with lt | same | gt
  · exact absurd g.busy (h.not_busy lt)
  · exact same
  · exact absurd h.busy (g.not_busy gt)

theorem Stops.add {k n : Nat} (busy : m.Busy k) (ok : (m.halfTicks k).fault = none)
    (h : (m.halfTicks k).machine.Stops n) : m.Stops (k + n) := by
  refine ⟨busy.append ok h.busy, ?_⟩
  rw [halfTicks_add, Moment.fault_andThen_of_ok ok, Moment.machine_andThen_of_ok ok]
  exact h.stops

theorem Stops.of_add {k n : Nat} (ok : (m.halfTicks k).fault = none) (h : m.Stops (k + n)) :
    (m.halfTicks k).machine.Stops n := by
  refine ⟨fun j lt => ?_, ?_⟩
  · have busy := h.busy (k + j) (by omega)
    rwa [halfTicks_add, Moment.fault_andThen_of_ok ok, Moment.machine_andThen_of_ok ok] at busy
  · have stops := h.stops
    rwa [halfTicks_add, Moment.fault_andThen_of_ok ok, Moment.machine_andThen_of_ok ok] at stops

/-- A run with enough budget stops where the machine does. -/
theorem Stops.enough {n budget : Nat} (h : m.Stops n) (le : n ≤ budget) : m.StopsAfter budget n :=
  ⟨le, h.busy, .inr h.stops⟩

theorem Stops.short {n budget : Nat} (h : m.Stops n) (lt : budget < n) :
    m.StopsAfter budget budget :=
  ⟨Nat.le_refl _, h.busy.mono (Nat.le_of_lt lt), .inl rfl⟩

/-- How a ready machine gets through its next instruction. -/
inductive Turn (m : Machine) : Prop where
  | goes {k : Nat} (time : 0 < k) (step : m.instruct.Same (m.halfTicks k))
      (ok : (m.halfTicks k).fault = none) (busy : m.Busy k)
      (ready : (m.halfTicks k).machine.Ready) (going : (m.halfTicks k).machine.halted = false)
  | halts (step : m.instruct.Same (m.halfTicks 8)) (stops : m.Stops 7)
      (decided : (m.halfTicks 7).fault = none) (ok : (m.halfTicks 8).fault = none)
      (passes : (m.halfTicks 8).machine =
        { (m.halfTicks 7).machine with clock := (m.halfTicks 7).machine.clock.advance })
      (silent : (m.halfTicks 8).requests = (m.halfTicks 7).requests)
  | fails {f : Fault} (step : m.instruct.Same (m.halfTicks 8)) (stops : m.Stops 8)
      (fault : (m.halfTicks 8).fault = some f)

theorem Ready.turn (h : m.Ready) (going : m.halted = false) : m.Turn := by
  have cleared : (m.marked false).Ready := h.clearSkippedCall
  have step {k : Nat} (e : pairs maxStages (m.marked false) = (m.marked false).halfTicks k) :
      m.instruct.Same (m.halfTicks k) := by
    have same := same_halfTicks k m false
    rw [← e] at same
    exact same
  by_cases named : m.programState.instruction.operation? = some .daa
  · obtain ⟨fault, -, busy⟩ := h.refuses named
    exact .fails (step (cleared.refuses named).2.1)
      ⟨busy going, .inl (by rw [fault]; simp)⟩ fault
  · obtain ⟨ok, ready, -, whole, -⟩ := h.spans named
    have steps := step (cleared.spans named).2.2.2.2
    cases halts : m.programState.instruction.halts with
    | false =>
      obtain ⟨busy, still⟩ := h.busy named going halts
      have long : 0 < m.programState.halfTicks := by
        rw [ProgramState.halfTicks]
        omega
      exact .goes long steps ok busy ready still
    | true =>
      obtain ⟨length, passes⟩ := h.rests halts
      obtain ⟨decided, rests, -, busy⟩ := h.asks
      have length' : (m.marked false).programState.halfTicks = 8 := length
      rw [length'] at steps
      rw [length] at ok whole
      exact .halts steps ⟨busy going, .inr (rests.trans halts)⟩ decided ok passes whole

end Machine

namespace Computer

variable {ω : Type}

/-- The loop that steps a computer until it has come to rest ends like this: with the fault that
stopped it, or with none. -/
inductive Stepping (see : ω → Event → ω) : Computer → ω → Computer → ω → Option Fault → Prop where
  | rests {c : Computer} {w : ω} (halted : c.machine.halted = true) : Stepping see c w c w none
  | fails {c c' : Computer} {w w' : ω} {f : Fault} (going : c.machine.halted = false)
      (step : c.step see w = (c', w', .error f)) : Stepping see c w c' w' (some f)
  | goes {c c' c'' : Computer} {w w' w'' : ω} {r : Option Fault}
      (going : c.machine.halted = false) (step : c.step see w = (c', w', .ok ()))
      (rest : Stepping see c' w' c'' w'' r) : Stepping see c w c'' w'' r

variable (answer : ω → SystemCall → Memory → ω) (w : ω) {c : Computer} {m : Machine}

theorem step_of_same {b : Bool} (start : c.machine = m.marked b) {k : Nat}
    (same : m.instruct.Same (m.halfTicks k)) :
    ∃ c' d, c.step (answering answer) w =
        (c', answered answer w (m.halfTicks k).requests, (m.halfTicks k).result) ∧
      c'.machine = (m.halfTicks k).machine.marked d := by
  have instruct : c.machine.instruct = m.instruct := by
    rw [start]
    rfl
  obtain ⟨d, machine⟩ := same.machine
  refine ⟨(c.step (answering answer) w).1, d, ?_, ?_⟩
  · refine Prod.ext rfl (Prod.ext ?_ ?_)
    · rw [watcher_step, instruct, same.requests]
    · rw [result_step, instruct, Moment.result, Moment.result, same.fault]
  · rw [machine_step, instruct, machine]

variable {answer w}

/-- The loop ended where the machine `m` stops, after `n` half-ticks, or one half-tick later if that
is a halt. -/
structure Ends (answer : ω → SystemCall → Memory → ω) (m : Machine) (w : ω) (n : Nat)
    (c' : Computer) (w' : ω) (r : Option Fault) : Prop where
  stops : m.Stops n
  fault : (m.halfTicks n).fault = r
  host : w' = answered answer w (m.halfTicks n).requests
  halted : r = none → ∃ b, c'.machine =
    { (m.halfTicks n).machine with clock := (m.halfTicks n).machine.clock.advance }.marked b
  failed : r ≠ none → ∃ b, c'.machine = (m.halfTicks n).machine.marked b

theorem Ends.clock_eq {n : Nat} {c' : Computer} {w' : ω} (line : m.resetPending = false)
    (h : Ends answer m w n c' w' none) :
    c'.machine.clock.halfTicks = m.clock.halfTicks + n + 1 := by
  obtain ⟨b, machine⟩ := h.halted rfl
  rw [machine, ← (Machine.clock_halfTicks line h.fault).1]
  rfl

theorem Ends.later {k n : Nat} {c' : Computer} {w' : ω} {r : Option Fault} (busy : m.Busy k)
    (ok : (m.halfTicks k).fault = none)
    (h : Ends answer (m.halfTicks k).machine (answered answer w (m.halfTicks k).requests) n
      c' w' r) : Ends answer m w (k + n) c' w' r := by
  have machine : (m.halfTicks (k + n)).machine = ((m.halfTicks k).machine.halfTicks n).machine := by
    rw [Machine.halfTicks_add, Moment.machine_andThen_of_ok ok]
  refine ⟨.add busy ok h.stops, ?_, ?_, ?_, ?_⟩
  · rw [Machine.halfTicks_add, Moment.fault_andThen_of_ok ok]
    exact h.fault
  · rw [Machine.halfTicks_add, Moment.requests_andThen_of_ok ok, answered_append]
    exact h.host
  · rw [machine]
    exact h.halted
  · rw [machine]
    exact h.failed

theorem Stepping.ends {c' : Computer} {w' : ω} {r : Option Fault}
    (h : Stepping (answering answer) c w c' w' r) {b : Bool} (start : c.machine = m.marked b)
    (ready : m.Ready) (still : m.halted = false) : ∃ n, Ends answer m w n c' w' r := by
  -- on the steps of the loop, each of which is a turn of the machine
  induction h generalizing m b with
  | rests halted =>
    rw [start] at halted
    exact absurd (halted.symm.trans still) (by simp)
  | @fails c c' w w' f going step =>
    cases ready.turn still with
    | goes time same ok busy ready' going' =>
      obtain ⟨c₁, d, stepped, -⟩ := step_of_same answer w start same
      rw [step, Moment.result, ok] at stepped
      cases stepped
    | halts same stops decided ok passes silent =>
      obtain ⟨c₁, d, stepped, -⟩ := step_of_same answer w start same
      rw [step, Moment.result, ok] at stepped
      cases stepped
    | @fails g same stops fault =>
      obtain ⟨c₁, d, stepped, machine⟩ := step_of_same answer w start same
      rw [step, Moment.result, fault] at stepped
      cases stepped
      exact ⟨8, stops, fault, rfl, fun impossible => (by cases impossible), fun _ => ⟨d, machine⟩⟩
  | @goes c c' c'' w w' w'' r going step rest ih =>
    cases ready.turn still with
    | @goes k time same ok busy ready' going' =>
      obtain ⟨c₁, d, stepped, machine⟩ := step_of_same answer w start same
      rw [step, Moment.result, ok] at stepped
      cases stepped
      obtain ⟨n, ends⟩ := ih machine ready' going'
      exact ⟨k + n, ends.later busy ok⟩
    | halts same stops decided ok passes silent =>
      obtain ⟨c₁, d, stepped, machine⟩ := step_of_same answer w start same
      rw [step, Moment.result, ok] at stepped
      cases stepped
      have halted : c'.machine.halted = true := by
        rw [machine, passes]
        exact stops.stops.resolve_left (fun fails => fails decided)
      cases rest with
      | rests _ =>
        refine ⟨7, stops, decided, by rw [silent], fun _ => ⟨d, ?_⟩, fun some => absurd rfl some⟩
        rw [machine, passes]
      | fails going' => exact absurd (halted.symm.trans going') (by simp)
      | goes going' => exact absurd (halted.symm.trans going') (by simp)
    | @fails g same stops fault =>
      obtain ⟨c₁, d, stepped, -⟩ := step_of_same answer w start same
      rw [step, Moment.result, fault] at stepped
      cases stepped

theorem exists_stepping (n : Nat) {b : Bool} (start : c.machine = m.marked b) (ready : m.Ready)
    (still : m.halted = false) (stops : m.Stops n) :
    ∃ c' w' r, Stepping (answering answer) c w c' w' r := by
  induction n using Nat.strongRecOn generalizing c w m b with
  | ind n ih =>
    have going : c.machine.halted = false := by
      rw [start]
      exact still
    cases ready.turn still with
    | @goes k time same ok busy ready' going' =>
      obtain ⟨c₁, d, stepped, machine⟩ := step_of_same answer w start same
      rw [Moment.result, ok] at stepped
      obtain ⟨j, rfl⟩ := Nat.exists_eq_add_of_le
        (Nat.le_of_not_lt fun lt => stops.not_busy lt busy)
      obtain ⟨c', w', r, rest⟩ := ih j (by omega) machine ready' going' (.of_add ok stops)
      exact ⟨c', w', r, .goes going stepped rest⟩
    | halts same stops' decided ok passes silent =>
      obtain ⟨c₁, d, stepped, machine⟩ := step_of_same answer w start same
      rw [Moment.result, ok] at stepped
      refine ⟨c₁, _, none, .goes going stepped (.rests ?_)⟩
      rw [machine, passes]
      exact stops'.stops.resolve_left (fun fails => fails decided)
    | fails same stops' fault =>
      obtain ⟨c₁, d, stepped, machine⟩ := step_of_same answer w start same
      rw [Moment.result, fault] at stepped
      exact ⟨c₁, _, _, .fails going stepped⟩

theorem stops_of_run {budget : Nat} {c' : Computer} {w' : ω} {result : Except Fault RunReport}
    (run : c.run (answering answer) budget w = (c', w', result))
    (early : ∀ n, result ≠ .ok { halfTicks := n, halted := false }) : ∃ n, c.machine.Stops n := by
  obtain ⟨n, stops⟩ := c.machine.exists_stopsAfter budget
  obtain ⟨c₁, ran, -⟩ := run_eq answer w stops
  rw [run] at ran
  obtain ⟨-, -, rfl⟩ := ran
  refine ⟨n, stops.busy, ?_⟩
  cases fault : (c.machine.halfTicks n).fault with
  | some f => exact .inl (by simp)
  | none =>
    right
    cases halted : (c.machine.halfTicks n).machine.halted with
    | true => rfl
    | false => exact absurd (by rw [fault, halted]) (early n)

def reported (n : Nat) : Option Fault → Except Fault RunReport
  | none => .ok { halfTicks := n, halted := true }
  | some f => .error f

/-- A run with enough budget ends as the loop does, and others spend what they have. -/
theorem Ends.runs {n : Nat} {c' : Computer} {w' : ω} {r : Option Fault}
    (h : Ends answer c.machine w n c' w' r) :
    (∀ max, n ≤ max → ∃ c₂, c.run (answering answer) max w = (c₂, w', reported n r) ∧
      c₂.machine = (c.machine.halfTicks n).machine) ∧
    ∀ max < n, ∃ c₂ w₂, c.run (answering answer) max w =
      (c₂, w₂, .ok { halfTicks := max, halted := false }) := by
  refine ⟨fun max le => ?_, fun max lt => ?_⟩
  · obtain ⟨c₂, ran, machine⟩ := run_eq answer w (h.stops.enough le)
    refine ⟨c₂, ?_, machine⟩
    rw [ran, h.host]
    have fault := h.fault
    cases r with
    | some f =>
      rw [fault]
      rfl
    | none =>
      have halted := h.stops.stops.resolve_left fun fails => fails fault
      rw [fault, halted]
      rfl
  · obtain ⟨c₂, ran, -⟩ := run_eq answer w (h.stops.short lt)
    obtain ⟨ok, going⟩ := h.stops.busy max lt
    rw [ok, going] at ran
    exact ⟨c₂, _, ran⟩

/-- A run that did not spend its budget reports how the loop ends. -/
theorem Ends.result_of_run {n max : Nat} {c' c₂ : Computer} {w' w₂ : ω} {r : Option Fault}
    {result : Except Fault RunReport} (h : Ends answer c.machine w n c' w' r)
    (ran : c.run (answering answer) max w = (c₂, w₂, result))
    (early : ∀ n, result ≠ .ok { halfTicks := n, halted := false }) : result = reported n r := by
  obtain ⟨enough, short⟩ := h.runs
  rcases Nat.lt_or_ge max n with lt | le
  · obtain ⟨c₃, w₃, spent⟩ := short max lt
    rw [ran] at spent
    cases spent
    exact absurd rfl (early max)
  · obtain ⟨c₃, ended, -⟩ := enough max le
    rw [ran] at ended
    cases ended
    rfl

/-- From a reset, a loop of steps halts if and only if a run does: the run reports one half-tick
less, and finds the machine as the loop does but for this half-tick and the marker of skipped calls.
A loop fails if and only if a run does, with the same fault in the same machine but for the
marker.  Either way the host was asked for the same. -/
theorem run_and_stepping (c : Computer) (image : Array UInt8)
    (answer : ω → SystemCall → Memory → ω) (w : ω) :
    let start := (c.reset image).1
    let loop := Stepping (answering answer) start w
    let run := fun max => start.run (answering answer) max w
    (∀ c₁ w₁, loop c₁ w₁ none →
      let t := c₁.machine.clock.halfTicks
      0 < t ∧
      (∀ max, t - 1 ≤ max → ∃ c₂,
        run max = (c₂, w₁, .ok { halfTicks := t - 1, halted := true }) ∧
        c₁.machine =
          { c₂.machine with
            clock := c₂.machine.clock.advance
            sequencer :=
              { c₂.machine.sequencer with skippedCall := c₁.machine.sequencer.skippedCall } }) ∧
      ∀ max < t - 1, ∃ c₂ w₂, run max = (c₂, w₂, .ok { halfTicks := max, halted := false })) ∧
    (∀ max c₂ w₂ n, run max = (c₂, w₂, .ok { halfTicks := n, halted := true }) →
      ∃ c₁ w₁, loop c₁ w₁ none) ∧
    (∀ c₁ w₁ f, loop c₁ w₁ (some f) → ∃ n,
      (∀ max, n ≤ max → ∃ c₂, run max = (c₂, w₁, .error f) ∧
        c₁.machine =
          { c₂.machine with
            sequencer :=
              { c₂.machine.sequencer with skippedCall := c₁.machine.sequencer.skippedCall } }) ∧
      ∀ max < n, ∃ c₂ w₂, run max = (c₂, w₂, .ok { halfTicks := max, halted := false })) ∧
    ∀ max c₂ w₂ f, run max = (c₂, w₂, .error f) → ∃ c₁ w₁ g, loop c₁ w₁ (some g) := by
  intro start loop run
  have ready : start.machine.Ready := Machine.ready_powerOn image
  have own := start.machine.marked_self.symm
  obtain ⟨zero, still⟩ := fresh_reset c image
  have ends {c₁ w₁ r} (h : loop c₁ w₁ r) : ∃ n, Ends answer start.machine w n c₁ w₁ r :=
    h.ends own ready still
  have exists_loop {n} (stops : start.machine.Stops n) : ∃ c₁ w₁ r, loop c₁ w₁ r :=
    exists_stepping n own ready still stops
  refine ⟨fun c₁ w₁ h => ?_, fun max c₂ w₂ n ran => ?_, fun c₁ w₁ f h => ?_,
    fun max c₂ w₂ f ran => ?_⟩
  · obtain ⟨n, h⟩ := ends h
    obtain ⟨enough, short⟩ := h.runs
    obtain ⟨b, machine⟩ := h.halted rfl
    have time : c₁.machine.clock.halfTicks = n + 1 := by
      rw [h.clock_eq ready.line, zero, Nat.zero_add]
    rw [time]
    refine ⟨Nat.succ_pos n, fun max le => ?_, short⟩
    obtain ⟨c₂, ran, same⟩ := enough max le
    refine ⟨c₂, ran, ?_⟩
    rw [machine, same]
    rfl
  · obtain ⟨k, stops⟩ := stops_of_run ran (by simp)
    obtain ⟨c₁, w₁, r, h⟩ := exists_loop stops
    obtain ⟨j, e⟩ := ends h
    cases r with
    | none => exact ⟨c₁, w₁, h⟩
    | some g => cases e.result_of_run ran (by simp)
  · obtain ⟨n, h⟩ := ends h
    obtain ⟨enough, short⟩ := h.runs
    obtain ⟨b, machine⟩ := h.failed (by simp)
    refine ⟨n, fun max le => ?_, short⟩
    obtain ⟨c₂, ran, same⟩ := enough max le
    refine ⟨c₂, ran, ?_⟩
    rw [machine, same]
    rfl
  · obtain ⟨k, stops⟩ := stops_of_run ran (by simp)
    obtain ⟨c₁, w₁, r, h⟩ := exists_loop stops
    obtain ⟨j, e⟩ := ends h
    cases r with
    | none => cases e.result_of_run ran (by simp)
    | some g => exact ⟨c₁, w₁, g, h⟩

/-- A program that begins with a halt: the run reports seven half-ticks, the loop took eight. -/
theorem run_and_stepping_halt :
    let start := ((new {}).reset #[0x76]).1
    let see : Nat → Event → Nat := answering fun n _ _ => n + 1
    ∃ c₁ c₂, Stepping see start 0 c₁ 0 none ∧ c₁.machine.clock.halfTicks = 8 ∧
      start.run see 7 0 = (c₂, 0, .ok { halfTicks := 7, halted := true }) := by
  intro start see
  have ready : start.machine.Ready := Machine.ready_powerOn #[0x76]
  have own := start.machine.marked_self.symm
  obtain ⟨zero, still⟩ := fresh_reset (new {}) #[0x76]
  have halt : start.machine.programState.instruction = .halt :=
    instruction_reset (new {}) (by decide)
  obtain ⟨decided, rests, asked, busy⟩ := ready.asks
  have stops : start.machine.Stops 7 := ⟨busy still, .inr (by rw [rests, halt]; rfl)⟩
  obtain ⟨c₁, w₁, r, loop⟩ : ∃ c₁ w₁ r, Stepping see start 0 c₁ w₁ r :=
    exists_stepping 7 own ready still stops
  obtain ⟨n, ends⟩ := loop.ends own ready still
  cases ends.stops.unique stops
  cases ends.fault.symm.trans decided
  have silent : (start.machine.halfTicks 7).requests = [] := by
    rw [ProgramState.request?_of_halts (by rw [halt]; rfl)] at asked
    exact List.map_eq_nil_iff.1 asked
  have host : w₁ = 0 := by simp [ends.host, silent, answered]
  subst host
  have time : c₁.machine.clock.halfTicks = 8 := by
    rw [ends.clock_eq ready.line, zero]
  obtain ⟨-, enough, -⟩ := (run_and_stepping (new {}) #[0x76] (fun n _ _ => n + 1) 0).1 c₁ 0 loop
  obtain ⟨c₂, ran, -⟩ := enough 7 (Nat.sub_le_of_le_add (Nat.le_of_eq time))
  rw [time] at ran
  exact ⟨c₁, c₂, loop, time, ran⟩

end Computer

end Micro8080
