import Micro8080.Proofs.Debugger.Meaning

/-! # Single steps

A run that ends as a single step has carried out one instruction, with one exception.  In the root
frame there is nothing to step out of, and a run out of it looks for no depth, like a run into an
instruction.  It is to stop after one instruction for that, but after a call that is taken every run
that does not step into it looks at the breakpoints only, whether it waits for a return or not.  So
this one goes on, into the subroutine, up to the first instruction that is no call
(`run_of_single_step`).

What carries the induction is that a run that looks for no depth has met nothing but calls
(`Trails.calls`).
-/

namespace Micro8080.Debugger

variable {d e : Debugger} {cs : List FrameChange} {change : FrameChange} {mode : Mode}
  {target : Option Nat}

/-! ## Runs that look for no depth -/

theorem nextTarget_eq_none (h : d.nextTarget mode target change = none) :
    target = none ∧ (mode = .over → change ≠ .entered) := by
  simp only [nextTarget] at h
  split at h
  · cases h
  · next other =>
    refine ⟨h, ?_⟩
    intro stepsOver entered
    exact other ⟨entered, stepsOver, h⟩

theorem entered_of_goes (bounded : mode ≠ .continue) (h : d.stopEvent? mode none change = none) :
    change = .entered ∧ mode ≠ .into := by
  have stops : d.stopEvent? mode none .unchanged ≠ none := by
    simp only [stopEvent?]
    split
    · nofun
    · cases d.breakpointEvent? <;> simp [bounded]
  cases change with
  | entered =>
    refine ⟨rfl, ?_⟩
    rintro rfl
    exact stops h
  | returned frame =>
    have same : d.stopEvent? mode none (.returned frame) = d.stopEvent? mode none .unchanged := by
      simp [stopEvent?]
    exact absurd (same ▸ h) stops
  | unchanged => exact absurd h stops

theorem of_stopEvent?_step {pc : UInt16} (h : d.stopEvent? mode target change = some (.step pc)) :
    mode ≠ .continue ∧ (mode = .into ∨ target = none) ∧ (mode ≠ .into → change ≠ .entered) := by
  have general : d.stopEvent? mode target .unchanged = some (.step pc) →
      mode ≠ .continue ∧ (mode = .into ∨ target = none) := by
    intro stops
    simp only [stopEvent?] at stops
    split at stops
    · cases stops
    · split at stops
      · next at_break =>
        simp only [breakpointEvent?] at at_break
        split at at_break <;> simp_all
      · split at stops
        · cases stops
        · next goes =>
          simp only [not_or, not_and, ne_eq, Decidable.not_not] at goes
          exact ⟨goes.1, Decidable.or_iff_not_imp_left.2 goes.2⟩
  cases change with
  | entered =>
    by_cases into : mode = .into
    · subst into
      exact ⟨nofun, .inl rfl, fun other => absurd rfl other⟩
    · simp only [stopEvent?, if_neg into, breakpointEvent?] at h
      split at h <;> cases h
  | returned frame =>
    simp only [stopEvent?] at h
    split at h
    · cases h
    · obtain ⟨bounded, looks⟩ := general h
      exact ⟨bounded, looks, fun _ => nofun⟩
  | unchanged =>
    obtain ⟨bounded, looks⟩ := general h
    exact ⟨bounded, looks, fun _ => nofun⟩

theorem Trails.target_eq (h : Trails mode d cs target e) (other : mode ≠ .over) :
    target = d.initialTarget mode := by
  induction h with
  | none => rfl
  | one before ok goes ih => simp [targetAfter, nextTarget, other, ih]

theorem Trails.calls (h : Trails mode d cs target e) (bounded : mode ≠ .continue)
    (looks : target = .none) : (∀ change ∈ cs, change = .entered) ∧ (cs ≠ [] → mode = .out) := by
  induction h with
  | none => exact ⟨nofun, fun nonempty => absurd rfl nonempty⟩
  | @one e cs target c before ok goes ih =>
    rw [eventAfter?, looks] at goes
    obtain ⟨entered, passes⟩ := entered_of_goes bounded goes
    obtain ⟨looked, notOver⟩ := nextTarget_eq_none looks
    refine ⟨?_, fun _ => ?_⟩
    · intro change mem
      rcases List.mem_append.1 mem with earlier | now
      · exact (ih looked).1 change earlier
      · exact (List.mem_singleton.1 now).trans entered
    · cases mode with
      | out => rfl
      | «over» => exact absurd entered (notOver rfl)
      | into => exact absurd rfl passes
      | «continue» => exact absurd rfl bounded

/-! ## A run that takes a call first -/

variable {c : Computer} {ω : Type} (see : ω → Event → ω)

theorem runOn_of_goes (ok : d.computer.next = (c, .ok ()))
    (goes : { d with computer := c }.eventAfter? mode target = none) (budget done : Nat) (w : ω) :
    ∃ w', d.runOn see mode (budget + 1) done target w =
      { d with computer := c }.trackFrames.runOn see mode budget (done + 1)
        ({ d with computer := c }.targetAfter mode target) w' := by
  obtain ⟨computer, result⟩ := d.computer.step_eq_next see w
  rw [ok] at computer result
  rw [eventAfter?, targetAfter] at goes
  simp only [runOn]
  generalize d.computer.step see w = t at computer result ⊢
  obtain ⟨c', w', r⟩ := t
  cases computer
  cases result
  simp only [goes]
  exact ⟨w', rfl⟩

theorem runOn_of_stops {event : StopEvent} (ok : d.computer.next = (c, .ok ()))
    (stops : { d with computer := c }.eventAfter? mode target = some event)
    (budget done : Nat) (w : ω) :
    (d.runOn see mode (budget + 1) done target w).2.2 = .ok { steps := done + 1, event } := by
  obtain ⟨computer, result⟩ := d.computer.step_eq_next see w
  rw [ok] at computer result
  rw [eventAfter?, targetAfter] at stops
  simp only [runOn]
  generalize d.computer.step see w = t at computer result ⊢
  obtain ⟨c', w', r⟩ := t
  cases computer
  cases result
  simp only [stops]

theorem breakpointEvent?_eq_none (unset : d.breakpoints = []) :
    d.trackFrames.breakpointEvent? = none := by
  rw [trackFrames_eq, breakpointEvent?]
  simp [unset]

theorem targetAfter_out (d : Debugger) (target : Option Nat) : d.targetAfter .out target = target := by
  simp [targetAfter, nextTarget]

theorem eventAfter?_of_entered (unset : d.breakpoints = []) (entered : d.frameChange = .entered) :
    d.eventAfter? .out target = none := by
  rw [eventAfter?, entered]
  exact breakpointEvent?_eq_none unset

theorem eventAfter?_of_returned {frame : Frame} (unset : d.breakpoints = [])
    (returned : d.frameChange = .returned frame) (running : d.computer.machine.halted = false) :
    d.eventAfter? .out none = some (.step d.computer.machine.pc) := by
  have unstopped := breakpointEvent?_eq_none unset
  rw [eventAfter?, targetAfter_out, returned]
  simp [stopEvent?, unstopped, trackFrames_computer, running]

/-- Out of the root frame, a call that comes back at once makes two instructions of what is to be
one. -/
theorem run_out_of_root (ready : d.computer.machine.Ready) (root : d.frames.size = 1)
    (unset : d.breakpoints = []) {s t : ProgramState} (start : d.computer.machine.programState = s)
    (calls : s.calls = true) (called : s.execute s.instruction = t) (returns : t.returns = true)
    (w : ω) :
    (d.run see .out 2 w).2.2 =
      .ok { steps := 2, event := .step (t.execute t.instruction).pc } := by
  subst start
  obtain ⟨k, at_pc, -⟩ := ProgramState.calls_iff.1 calls
  obtain ⟨c, ok⟩ := Computer.next_ok ready (by rw [at_pc]; nofun)
  have done := Computer.completed_of_next ready ok
  have entered := (frameChange_entered_iff (d := d) done).2 calls
  have goes : { d with computer := c }.eventAfter? .out none = none :=
    eventAfter?_of_entered unset entered
  obtain ⟨w', begins⟩ := runOn_of_goes see ok goes 1 0 w
  rw [targetAfter_out] at begins
  have inner : { d with computer := c }.trackFrames.frames.size = 2 := by
    rw [frames_of_completed done, if_pos calls, Array.size_push, root]
  have still : { d with computer := c }.trackFrames.breakpoints = [] := by
    rw [trackFrames_eq]
    exact unset
  have computer : { d with computer := c }.trackFrames.computer = c := trackFrames_computer _
  generalize { d with computer := c }.trackFrames = e at begins inner still computer
  subst computer
  rw [← called, ← done.state] at returns ⊢
  obtain ⟨k', at_pc', -⟩ := ProgramState.returns_iff.1 returns
  obtain ⟨c', ok'⟩ := Computer.next_ok done.ready (by rw [at_pc']; nofun)
  have done' := Computer.completed_of_next done.ready ok'
  have back : e.frames.back? = some (e.frames.back (by omega)) := by
    rw [Array.back?_eq_getElem?, Array.back]
    simp
  have returned := (frameChange_returned_iff (d := e) done' _).2 ⟨returns, by omega, back⟩
  have running : c'.machine.halted = false := by
    rw [done'.halted, at_pc']
    rfl
  have stops := eventAfter?_of_returned (d := { e with computer := c' }) still returned running
  have initial : d.initialTarget .out = none := by simp [initialTarget, root]
  rw [run, initial, begins, runOn_of_stops see ok' stops 0 1 w', ← done'.state]
  rfl

theorem calling_out_of_root :
    (calling.run (fun _ _ => ()) .out 2 ()).2.2 = .ok { steps := 2, event := .step 3 } := by
  obtain ⟨c, -, -, -, calls⟩ := calling_calls
  have ready : calling.computer.machine.Ready := Machine.ready_powerOn Computer.subroutine
  have pc : calling.computer.machine.programState.pc = 0 :=
    (Computer.calls_subroutine (Computer.new {})).1
  have returns := Computer.returns_from_subroutine (Computer.new {})
  have back := ProgramState.pc_of_returns calls rfl returns
  have runs := run_out_of_root (fun _ _ => ()) ready rfl rfl rfl calls rfl returns ()
  rw [back, pc] at runs
  exact runs

/-! ## Where single steps end -/

/-- A run that ends as a single step has carried out one instruction.  Only a run out of the root
frame may have taken calls before it. -/
theorem run_of_single_step (mode : Mode) (max : Nat) (d : Debugger) (w : ω) {n : Nat} {pc : UInt16}
    (stepped : (d.run see mode max w).2.2 = .ok { steps := n, event := .step pc }) :
    ((mode = .out → 1 < d.frames.size) → n = 1) ∧
    ∃ calls change, n = calls + 1 ∧
      Executes d (List.replicate calls .entered ++ [change]) (d.run see mode max w).1 ∧
      (0 < calls → mode = .out ∧ d.frames.size ≤ 1) ∧
      (mode ≠ .into → change ≠ .entered) := by
  have outcome := run_outcome see mode max d w
  rw [stepped] at outcome
  generalize (d.run see mode max w).1 = e at outcome ⊢
  cases outcome with
  | @stops cs target e c _ trails within ok stops =>
    obtain ⟨bounded, looks, other⟩ := of_stopEvent?_step stops
    have looked : target = none := by
      rcases looks with into | none
      · rw [trails.target_eq (by rw [into]; nofun), into]
        rfl
      · exact (nextTarget_eq_none none).1
    obtain ⟨calls, out⟩ := trails.calls bounded looked
    have root : 0 < cs.length → mode = .out ∧ d.frames.size ≤ 1 := by
      intro long
      have steps := out (List.ne_nil_of_length_pos long)
      refine ⟨steps, ?_⟩
      have initial := trails.target_eq (by rw [steps]; nofun)
      rw [looked, steps] at initial
      by_cases inner : 1 < d.frames.size
      · simp [initialTarget, inner] at initial
      · exact Nat.le_of_not_lt inner
    refine ⟨?_, cs.length, _, rfl, ?_, root, other⟩
    · intro inner
      by_cases long : 0 < cs.length
      · obtain ⟨steps, shallow⟩ := root long
        exact absurd (inner steps) (Nat.not_lt.2 shallow)
      · omega
    · rw [← List.eq_replicate_iff.2 ⟨rfl, calls⟩]
      exact trails.executes.one ok

theorem run_of_single_step_out :
    (calling.run (fun _ _ => ()) .out 2 ()).2.2 = .ok { steps := 2, event := .step 3 } ∧
      ∃ calls change, 2 = calls + 1 ∧
        Executes calling (List.replicate calls .entered ++ [change])
          (calling.run (fun _ _ => ()) .out 2 ()).1 ∧
        (0 < calls → Mode.out = .out ∧ calling.frames.size ≤ 1) ∧
        (Mode.out ≠ .into → change ≠ .entered) :=
  ⟨calling_out_of_root,
    (run_of_single_step (fun _ _ => ()) .out 2 calling () calling_out_of_root).2⟩

/-- A run out of the root frame of a new debugger ends as a single step after two instructions. -/
theorem single_step_of_two :
    new calling.program {} = .ok calling ∧ calling.frames = #[rootFrame] ∧
      (calling.run (fun _ _ => ()) .out 2 ()).2.2 = .ok { steps := 2, event := .step 3 } :=
  ⟨new_eq calling.program {}, rfl, calling_out_of_root⟩

end Micro8080.Debugger
