import Mathlib.Order.Bounds.Basic
import Micro8080.Proofs.Computer.Observation
import Micro8080.Proofs.Computer.Stepping

/-! # Runs in slices

A run with a budget can be cut anywhere: what a first slice leaves of the budget to a second one, it
leaves it to go on as the run would have gone on (`runInSlices_eq`).  How many half-ticks a run
takes is then the smaller one of its budget and of the way to the next rest (`sliced_run`).

The key is that the places where a run may stop are compared on the timeline of the machine.  A
slice that stops short of its budget stops with a fault, and then there is no second slice, or at a
rest, and then the second slice takes no half-tick (`Machine.StopsAfter.append`).

The host is one that answers system calls, since the log does tell slices apart: each of them that
ends at a rest says so.
-/

namespace Micro8080

/-- The report of a run whose first slice has the first report, and its second slice the second. -/
def RunReport.append (first second : RunReport) : RunReport where
  halfTicks := first.halfTicks + second.halfTicks
  halted := second.halted

namespace Machine

variable {m : Machine} {a b j k n : Nat}

theorem StopsAfter.of_halted (h : m.StopsAfter b j) (halted : m.halted = true) : j = 0 := by
  by_contra goes
  have going : m.halted = false := (h.busy 0 (Nat.pos_of_ne_zero goes)).2
  rw [halted] at going
  cases going

theorem StopsAfter.append (h : m.StopsAfter a k) (ok : (m.halfTicks k).fault = none)
    (rest : (m.halfTicks k).machine.StopsAfter b j) : m.StopsAfter (a + b) (k + j) := by
  refine ⟨Nat.add_le_add h.le rest.le, h.busy.append ok rest.busy, ?_⟩
  rw [halfTicks_add, Moment.fault_andThen_of_ok ok, Moment.machine_andThen_of_ok ok]
  rcases rest.stops with spent | stopped
  · rcases h.stops with all | fails | halts
    · exact .inl (by rw [all, spent])
    · exact absurd ok fails
    · have still := rest.of_halted halts
      subst still
      exact .inr (.inr halts)
  · exact .inr stopped

theorem StopsAfter.of_fault (h : m.StopsAfter a k) (fails : (m.halfTicks k).fault ≠ none)
    (b : Nat) : m.StopsAfter (a + b) k :=
  ⟨Nat.le_add_right_of_le h.le, h.busy, .inr (.inl fails)⟩

/-- A run without a fault takes its budget, or what it takes to come to rest, whichever is less. -/
theorem StopsAfter.eq_min (h : m.StopsAfter n k) (ok : (m.halfTicks k).fault = none)
    {rests : Nat → Prop} (same : ∀ i ≤ k, (rests i ↔ (m.halfTicks i).machine.halted = true)) :
    (∀ least, IsLeast { i | rests i } least → k = min n least) ∧
      ((∀ i, ¬ rests i) → k = n) := by
  have going (i : Nat) (lt : i < k) : ¬ rests i := by
    rw [same i (Nat.le_of_lt lt), (h.busy i lt).2]
    exact Bool.false_ne_true
  have spent_or_rests : k = n ∨ rests k := by
    rcases h.stops with all | fails | halts
    · exact .inl all
    · exact absurd ok fails
    · exact .inr ((same k (Nat.le_refl _)).2 halts)
  constructor
  · intro least found
    have later : k ≤ least := by
      by_contra earlier
      exact going least (Nat.lt_of_not_le earlier) found.1
    rcases spent_or_rests with rfl | rests
    · exact (Nat.min_eq_left later).symm
    · have first : least = k := Nat.le_antisymm (found.2 rests) later
      rw [first, Nat.min_eq_right h.le]
  · intro never
    exact spent_or_rests.resolve_right (never k)

end Machine

namespace Computer

variable {ω : Type} (answer : ω → SystemCall → Memory → ω) {c : Computer} {t : Moment} {k : Nat}

/-- The computer after a run of its machine. -/
def after (c : Computer) (t : Moment) : Computer where
  machine := t.machine
  config := c.config
  history := c.history ++ c.config.pictures t.recording

theorem machine_after (c : Computer) (t : Moment) : (c.after t).machine = t.machine := rfl

theorem after_still (c : Computer) : c.after { machine := c.machine } = c := by
  simp [after, Moment.recording, Config.pictures]

theorem after_andThen (ok : t.fault = none) (next : Machine → Moment) :
    c.after (t.andThen next) = (c.after t).after (next t.machine) := by
  simp only [after, Moment.machine_andThen_of_ok ok, Moment.recording_andThen_of_ok ok,
    Config.pictures_append, mk.injEq, true_and]
  apply Array.toList_inj.1
  simp only [Array.toList_appendList, List.append_assoc]

theorem run_of_stopsAfter {budget : Nat} (h : c.machine.StopsAfter budget k) (w : ω) :
    c.run (answering answer) budget w =
      (c.after (c.machine.halfTicks k), answered answer w (c.machine.halfTicks k).requests,
        (c.machine.halfTicks k).result.map fun _ =>
          { halfTicks := k, halted := (c.machine.halfTicks k).machine.halted }) := by
  have left : (c.run (answering answer) budget w).1 = c.after (c.machine.halfTicks k) :=
    perform_of_serves (answering answer) (.run h) w
  obtain ⟨c', run, -⟩ := run_eq answer w h
  rw [run] at left ⊢
  dsimp only at left
  rw [left, Moment.result]
  cases (c.machine.halfTicks k).fault <;> rfl

/-- As many half-ticks as the machine takes without a fault are as many calls. -/
theorem performAll_halfTicks (w : ω) (ok : (c.machine.halfTicks k).fault = none) :
    c.performAll (answering answer) w (.replicate k .halfTick) =
      (c.after (c.machine.halfTicks k),
        answered answer w (c.machine.halfTicks k).requests) := by
  induction k generalizing c w with
  | zero => exact congrArg (·, w) c.after_still.symm
  | succ k ih =>
    rw [Machine.halfTicks] at ok ⊢
    obtain ⟨now, later⟩ := Moment.fault_of_andThen ok
    have first : (c.perform (answering answer) w .halfTick).1 = c.after c.machine.halfTick :=
      perform_of_serves (answering answer) .halfTick w
    have host : (c.perform (answering answer) w .halfTick).2.1 =
        answered answer w c.machine.halfTick.requests :=
      host_of_serves answer .halfTick w
    rw [List.replicate_succ, performAll, first, host, ih _ later, after_andThen now,
      Moment.requests_andThen_of_ok now, answered_append]
    rfl

/-! ## Two slices -/

/-- A run, and, unless it fails, another one after it. -/
def runInSlices (see : ω → Event → ω) (a b : Nat) (c : Computer) (w : ω) :
    Computer × ω × Except Fault RunReport :=
  match c.run see a w with
  | (c, w, .error fault) => (c, w, .error fault)
  | (c, w, .ok first) =>
    let (c, w, result) := c.run see b w
    (c, w, result.map first.append)

theorem runInSlices_eq (a b : Nat) (c : Computer) (w : ω) :
    c.runInSlices (answering answer) a b w = c.run (answering answer) (a + b) w := by
  obtain ⟨k, stops⟩ := c.machine.exists_stopsAfter a
  cases fault : (c.machine.halfTicks k).fault with
  | some f =>
    have whole := stops.of_fault (by rw [fault]; nofun) b
    simp only [runInSlices, run_of_stopsAfter answer stops, run_of_stopsAfter answer whole,
      Moment.result, fault, Except.map]
  | none =>
    obtain ⟨j, rest⟩ := (c.machine.halfTicks k).machine.exists_stopsAfter b
    have second : (c.after (c.machine.halfTicks k)).machine.StopsAfter b j := rest
    have whole := stops.append fault rest
    have first : c.run (answering answer) a w =
        (c.after (c.machine.halfTicks k), answered answer w (c.machine.halfTicks k).requests,
          .ok { halfTicks := k, halted := (c.machine.halfTicks k).machine.halted }) := by
      rw [run_of_stopsAfter answer stops, Moment.result, fault]
      rfl
    simp only [runInSlices, first, run_of_stopsAfter answer second,
      run_of_stopsAfter answer whole, machine_after, Machine.halfTicks_add, after_andThen fault,
      Moment.requests_andThen_of_ok fault, answered_append, Moment.result,
      Moment.fault_andThen_of_ok fault, Moment.machine_andThen_of_ok fault]
    cases ((c.machine.halfTicks k).machine.halfTicks j).fault <;> rfl

theorem error_of_slices {see : ω → Event → ω} {a b : Nat} {w : ω} {f : Fault}
    (h : (c.runInSlices see a b w).2.2 = .error f) :
    let (c', w', first) := c.run see a w
    first = .error f ∨ (c'.run see b w').2.2 = .error f := by
  rcases run : c.run see a w with ⟨c', w', first | report⟩
  · simp only [runInSlices, run] at h
    exact .inl h
  · refine .inr ?_
    simp only [runInSlices, run] at h ⊢
    cases result : (c'.run see b w').2.2 with
    | error g => simpa [result, Except.map] using h
    | ok second => simp [result, Except.map] at h

/-- A run may be sliced anywhere.  Two slices leave the computer and the host as one run does, their
half-ticks add up, and the second one tells whether the machine is at rest.  When one run fails, so
does one of the slices, in the same way.  And a run that succeeds is as many calls for half-ticks as
its budget allows, or fewer if fewer of them bring the machine to rest. -/
theorem sliced_run (c : Computer) (w : ω) :
    let run := fun (n : Nat) (c : Computer) (w : ω) => c.run (answering answer) n w
    let after := fun k => c.performAll (answering answer) w (.replicate k .halfTick)
    (∀ a b,
      c.runInSlices (answering answer) a b w = run (a + b) c w ∧
      ∀ f, (run (a + b) c w).2.2 = .error f →
        let (c', w', first) := run a c w
        first = .error f ∨ (run b c' w').2.2 = .error f) ∧
    ∀ n c' w' report, run n c w = (c', w', .ok report) →
      (c', w') = after report.halfTicks ∧
      (∀ least, IsLeast { k | (after k).1.machine.halted = true } least →
        report.halfTicks = min n least) ∧
      ((∀ k, ¬ (after k).1.machine.halted = true) → report.halfTicks = n) := by
  intro run after
  refine ⟨fun a b => ?_, fun n c' w' report ran => ?_⟩
  · have slices := runInSlices_eq answer a b c w
    exact ⟨slices, fun f fails => error_of_slices (slices ▸ fails)⟩
  · obtain ⟨k, stops⟩ := c.machine.exists_stopsAfter n
    have whole := (run_of_stopsAfter answer stops w).symm.trans ran
    simp only [Prod.mk.injEq] at whole
    obtain ⟨left, host, result⟩ := whole
    cases fault : (c.machine.halfTicks k).fault with
    | some f => simp [Moment.result, fault, Except.map] at result
    | none =>
      simp only [Moment.result, fault, Except.map, Except.ok.injEq] at result
      subst result
      have reached (i : Nat) (le : i ≤ k) :
          after i = (c.after (c.machine.halfTicks i),
            answered answer w (c.machine.halfTicks i).requests) :=
        performAll_halfTicks answer w (Machine.fault_of_le fault le)
      refine ⟨?_, stops.eq_min fault fun i le => ?_⟩
      · rw [reached k (Nat.le_refl k), left, host]
      · rw [reached i le]
        rfl

/-- A program that begins with a halt, cut where the halt shows: nothing is left for the second
slice to do, and it reports the halt again. -/
theorem sliced_run_at_rest :
    let start := ((new {}).reset #[0x76]).1
    let see : Nat → Event → Nat := answering fun n _ _ => n + 1
    (start.runInSlices see 7 5 0).2.2 = .ok { halfTicks := 7, halted := true } := by
  intro start see
  have ready : start.machine.Ready := Machine.ready_powerOn #[0x76]
  have halt : start.machine.programState.instruction = .halt :=
    instruction_reset (new {}) (by decide)
  obtain ⟨decided, rests, -, busy⟩ := ready.asks
  have halted : (start.machine.halfTicks 7).machine.halted = true := by
    rw [rests, halt]
    rfl
  have stops : start.machine.Stops 7 := ⟨busy (fresh_reset (new {}) #[0x76]).2, .inr halted⟩
  have enough : start.machine.StopsAfter 12 7 := stops.enough (by decide)
  have whole := run_of_stopsAfter (fun (n : Nat) _ _ => n + 1) enough 0
  obtain ⟨slices, -⟩ := sliced_run (fun (n : Nat) _ _ => n + 1) start 0
  rw [(slices 7 5).1]
  show (start.run (answering fun (n : Nat) _ _ => n + 1) 12 0).2.2 = _
  rw [whole, Moment.result, decided, halted]
  rfl

end Computer

end Micro8080
