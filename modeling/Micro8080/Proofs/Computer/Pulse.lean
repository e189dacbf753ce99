import Micro8080.Proofs.Computer.Rest
import Micro8080.Proofs.Computer.Transcript
import Micro8080.Proofs.Machine.OutputLatch

/-! # Reset pulses

A half-tick that finds the reset line up clears every part, whatever the machine was doing.  What it
leaves is a machine that was just switched on, but for the output latch, which is no part
(`halfTick_pulseReset`).  From there on the two run alike, and what tells them apart is the value in
the latch and nothing else, up to the next value that is shown (`pulse_clears_all_but_output`).

The line is looked at by half-ticks only.  A run that finds the machine at rest takes none, so that
the line stays up (`run_after_pulse`).
-/

namespace Micro8080

namespace Machine

variable {m : Machine}

theorem halfTick_pulseReset (running : m.fault = none) :
    m.pulseReset.halfTick =
      { machine := ({} : Machine).showing m.out, events := [.resetPulse] } := by
  simp only [halfTick, pulseReset, running, if_true, clearParts]
  rfl

/-! ## The reset line -/

theorem line_halfTick (line : m.resetPending = false) :
    m.halfTick.machine.resetPending = false := by
  obtain ⟨-, kept, -⟩ := m.phaseMoment_keeps
  simp only [halfTick, line, Bool.false_eq_true, if_false]
  split
  · exact line
  · split <;> exact kept.trans line

theorem line_andThen {t : Moment} {f : Machine → Moment}
    (line : t.machine.resetPending = false)
    (keeps : ∀ n : Machine, n.resetPending = false → (f n).machine.resetPending = false) :
    (t.andThen f).machine.resetPending = false := by
  cases fault : t.fault with
  | some e => rwa [Moment.andThen_of_fault fault]
  | none =>
    rw [Moment.machine_andThen_of_ok fault]
    exact keeps _ line

theorem line_halfTicks (k : Nat) (line : m.resetPending = false) :
    (m.halfTicks k).machine.resetPending = false := by
  induction k generalizing m with
  | zero => exact line
  | succ k ih => exact line_andThen (line_halfTick line) fun _ down => ih down

theorem line_instruct (first : (m.marked false).halfTick.machine.resetPending = false) :
    m.instruct.machine.resetPending = false := by
  have pair : (m.marked false).pair.machine.resetPending = false :=
    line_andThen first fun _ down => line_halfTick down
  refine line_andThen pair fun n down => ?_
  split
  · exact down
  · obtain ⟨j, -, rest⟩ := exists_pairs_eq 15 n
    rw [rest]
    exact line_halfTicks _ down

/-! ## Runs -/

theorem StopsAfter.cons {budget k : Nat} (going : m.halted = false)
    (ok : m.halfTick.fault = none) (rest : m.halfTick.machine.StopsAfter budget k) :
    m.StopsAfter (budget + 1) (k + 1) := by
  have first : (m.halfTicks 1).fault = none ∧ (m.halfTicks 1).machine.Busy k := by
    rw [halfTicks_one]
    exact ⟨ok, rest.busy⟩
  refine ⟨Nat.succ_le_succ rest.le, ?_, ?_⟩
  · rw [Nat.add_comm k 1]
    exact (Busy.one going).append first.1 first.2
  · simpa only [halfTicks_of_ok ok, Nat.add_right_cancel_iff] using rest.stops

end Machine

/-! ## Snapshots -/

/-- The snapshots are the same, or one still shows `o` where the other one has shown nothing. -/
def Snapshot.Echoes (o : UInt8) (s s' : Snapshot) : Prop :=
  s = s' ∨ (s = { s' with out := o } ∧ s'.out = 0)

theorem Snapshot.echoes_of {o : UInt8} {k : Config} {s s' : Snapshot}
    (h : Snapshot.Of (Machine.Echoes o) k k s s') : s.Echoes o s' := by
  obtain ⟨m, n, alike, rfl, rfl⟩ := h
  obtain rfl | ⟨rfl, zero⟩ := alike
  · exact .inl rfl
  · exact .inr ⟨rfl, zero⟩

namespace Computer

/-- The reply is the same, and so are the snapshots, up to what they show. -/
structure Entry.Echoes (o : UInt8) (e e' : Entry) : Prop where
  reply : e.reply = e'.reply
  snapshots : List.Forall₂ (Snapshot.Echoes o) e.snapshots e'.snapshots

variable {ω : Type} (see : ω → Event → ω) {c : Computer}

theorem halfTick_pulse (running : c.machine.fault = none) (w : ω) :
    c.pulseReset.halfTick see w =
      ({ c with machine := ({} : Machine).showing c.machine.out }, see w .resetPulse, .ok ()) := by
  have moment := Machine.halfTick_pulseReset running
  simp only [halfTick, adopt, Machine.watchedHalfTick, pulseReset, moment]
  rfl

/-- A reset pulse and a half-tick leave a computer that was just switched on, but for the snapshots
that it has and the value in its output latch.  No call tells the two apart afterwards: what comes
back is the same, the host is asked for the same, and the new snapshots are the same up to the value
that they show.  They show the old value where the other computer has shown nothing yet. -/
theorem pulse_clears_all_but_output (c : Computer) (running : c.machine.fault = none)
    (answer : ω → SystemCall → Memory → ω) (w : ω) :
    let o := c.machine.out
    let fresh := new c.config
    let p := (c.pulseReset.halfTick (answering answer) w).1
    c.pulseReset.halfTick (answering answer) w = (p, w, .ok ()) ∧
    p = { fresh with machine := fresh.machine.showing o, history := c.history } ∧
    p.snapshot = { fresh.snapshot with out := o } ∧
    ∀ (v : ω) (later : List Call),
      List.Forall₂ (Entry.Echoes o) (p.transcript (answering answer) v later)
        (fresh.transcript (answering answer) v later) ∧
      (p.performAll (answering answer) v later).2 =
        (fresh.performAll (answering answer) v later).2 ∧
      (p.performAll (answering answer) v later).1.machine.Echoes o
        (fresh.performAll (answering answer) v later).1.machine := by
  intro o fresh p
  have pulse := halfTick_pulse (answering answer) running w
  have reached : p = { c with machine := fresh.machine.showing o } := congrArg Prod.fst pulse
  have like := Machine.likeness_echoes o
  have alike : p.machine.Echoes o fresh.machine := by
    rw [reached]
    exact .inr ⟨rfl, rfl⟩
  have config : p.config = c.config := by rw [reached]
  refine ⟨?_, reached, ?_, fun v later => ⟨?_, ?_, ?_⟩⟩
  · rw [reached]
    exact pulse
  · rw [reached]
    rfl
  · have entries := (like.transcript (answering answer) (answering answer) alike v v later).1
    rw [config] at entries
    exact entries.imp fun e e' h =>
      ⟨h.reply, (h.snapshots rfl).imp fun _ _ of => Snapshot.echoes_of of⟩
  · exact like.host alike answer v later
  · exact (like.transcript (answering answer) (answering answer) alike v v later).2

/-- A program that counts its accumulator up, and shows it. -/
theorem out_of_image (c : Computer) (image : Array UInt8) (fits : image.size ≤ 2048)
    (first : Instruction.decode (image[0]?.getD 0) = .stepRegister .a false)
    (second : Instruction.decode (image[1]?.getD 0) = .output) (w : ω) :
    let m := (c.performAll see w [.reset image, .step, .step]).1.machine
    m.fault = none ∧ m.out = 1 := by
  intro m
  let start : Machine := (Machine.powerOn image).1
  let next : Computer := (c.performAll see w [.reset image, .step]).1
  have reached : m = next.machine.instruct.machine := machine_step see next _
  obtain ⟨at_start, counted⟩ := completed_of_image see c image fits w first (by decide)
  have state : next.machine.programState = start.programState.execute _ := counted.state
  have pc : start.programState.pc = 0 := Machine.pc_powerOn image
  have acc : start.programState.acc = 0 := by
    simp only [start, Machine.powerOn_of_fits fits]
    rfl
  have at_next : next.machine.programState.instruction = .output := by
    have opcode : start.memory.read 1 = image[1]?.getD 0 := Machine.read_powerOn fits 1
    have moved : next.machine.programState.pc = 1 := by
      rw [state, at_start]
      show start.programState.pc + 1 = 1
      rw [pc]
      rfl
    have kept : next.machine.programState.memory = start.memory.bytes := by
      rw [state, at_start]
      rfl
    rw [← second, ← opcode, ProgramState.instruction, ProgramState.read, moved, kept]
    rfl
  have shown := counted.ready.completed (m := next.machine) (by rw [at_next]; decide)
  have value : m.out = start.programState.acc + 1 := by
    have out := congrArg ProgramState.out shown.state
    rw [at_next, state, at_start] at out
    rw [reached]
    exact out
  rw [acc] at value
  exact ⟨by rw [reached]; exact shown.ready.running, value⟩

theorem pulse_clears_all_but_output_shown :
    let c := ((new {}).performAll (fun _ _ => ()) () [.reset #[0x3C, 0xD3, 0x00], .step, .step]).1
    c.machine.fault = none ∧
      (c.pulseReset.halfTick (answering fun _ _ _ => ()) ()).1.snapshot =
        { (new {}).snapshot with out := 1 } := by
  obtain ⟨running, out⟩ :=
    out_of_image (fun _ _ => ()) (new {}) #[0x3C, 0xD3, 0x00] (by decide) rfl rfl ()
  obtain ⟨-, -, snapshot, -⟩ := pulse_clears_all_but_output _ running (fun _ _ _ => ()) ()
  rw [out, performAll_config] at snapshot
  exact ⟨running, snapshot⟩

/-- The value survives the pulse, and is seen. -/
theorem pulse_leaves_output :
    let c := ((new {}).performAll (fun _ _ => ()) () [.reset #[0x3C, 0xD3, 0x00], .step, .step]).1
    c.machine.fault = none ∧
      (c.pulseReset.halfTick (fun _ _ => ()) ()).1.snapshot ≠ (new {}).snapshot := by
  have any : ∀ c : Computer, c.machine.fault = none → c.machine.out = 1 →
      (c.pulseReset.halfTick (fun _ _ => ()) ()).1.snapshot ≠ (new {}).snapshot := by
    intro c running out same
    have zero := congrArg Snapshot.out same
    rw [halfTick_pulse (fun _ _ => ()) running] at zero
    exact absurd (out.symm.trans zero) (by decide)
  obtain ⟨running, out⟩ :=
    out_of_image (fun _ _ => ()) (new {}) #[0x3C, 0xD3, 0x00] (by decide) rfl rfl ()
  exact ⟨running, any _ running out⟩

theorem run_pulse_of_halted (rests : c.machine.halted = true) (n : Nat) (w : ω) :
    c.pulseReset.run see n w =
      (c.pulseReset, see w (.halted 0 c.machine.haltReason),
        .ok { halfTicks := 0, halted := true }) := by
  have halted : c.pulseReset.machine.halted = true := rests
  have still : Machine.runOn (watch see c.config) n 0 c.pulseReset.machine (c.history, w) =
      { machine := c.pulseReset.machine, watcher := (c.history, w), result := .ok 0 } := by
    cases n with
    | zero => rfl
    | succ n => simp only [Machine.runOn, halted, if_true]
  have config : c.pulseReset.config = c.config := rfl
  have history : c.pulseReset.history = c.history := rfl
  simp only [run, adopt, Machine.run, config, history, still, halted, if_true]
  rfl

/-- A run after a pulse takes one half-tick for the reset, and goes on as a run with one half-tick
less of a machine that was just switched on, unless the machine was at rest.  Then the run takes no
half-tick, and the line stays up.  Half-ticks and steps do not ask for a rest, and consume the pulse
whatever the machine was doing. -/
theorem run_after_pulse (c : Computer) (running : c.machine.fault = none) (w v : ω) :
    (c.machine.halted = false → ∀ n,
      let m := (c.pulseReset.run see (n + 1) w).1.machine
      let fresh := ((new c.config).run see n v).1.machine
      { m with out := fresh.out } = fresh ∧ m.resetPending = false) ∧
    (c.machine.halted = true → ∀ n,
      c.pulseReset.run see n w =
        (c.pulseReset, see w (.halted 0 c.machine.haltReason),
          .ok { halfTicks := 0, halted := true })) ∧
    (c.pulseReset.halfTick see w).1.machine = ({} : Machine).showing c.machine.out ∧
    (c.pulseReset.step see w).1.machine.resetPending = false := by
  have pulse : c.pulseReset.machine.halfTick = _ := Machine.halfTick_pulseReset running
  refine ⟨?_, ?_, ?_, ?_⟩
  · intro going n m fresh
    have like := Machine.likeness_echoes c.machine.out
    have alike : (({} : Machine).showing c.machine.out).Echoes c.machine.out {} :=
      .inr ⟨rfl, rfl⟩
    obtain ⟨k, stops⟩ := (({} : Machine).showing c.machine.out).exists_stopsAfter n
    have ok : c.pulseReset.machine.halfTick.fault = none := by rw [pulse]
    have longer : c.pulseReset.machine.StopsAfter (n + 1) (k + 1) := by
      refine .cons going ok ?_
      rw [pulse]
      exact stops
    have left : m = ((({} : Machine).showing c.machine.out).halfTicks k).machine := by
      rw [show m = _ from machine_run w see longer, Machine.halfTicks_of_ok ok, pulse]
    have right : fresh = (({} : Machine).halfTicks k).machine :=
      machine_run v see (like.stopsAfter alike stops)
    rw [left, right]
    exact ⟨(like.halfTicks k alike).machine.showing_eq, Machine.line_halfTicks k rfl⟩
  · exact fun rests n => run_pulse_of_halted see rests n w
  · rw [halfTick_pulse see running]
  · rw [machine_step]
    refine Machine.line_instruct ?_
    have marked : (c.pulseReset.machine.marked false).halfTick =
      _ := Machine.halfTick_pulseReset (m := c.machine.marked false) running
    rw [marked]
    rfl

theorem halted_of_image (c : Computer) (image : Array UInt8) (fits : image.size ≤ 2048)
    {i : Instruction} (first : Instruction.decode (image[0]?.getD 0) = i)
    (named : i.operation? ≠ some .daa) (w : ω) :
    let m := (c.performAll see w [.reset image, .step]).1.machine
    m.fault = none ∧ m.halted = i.halts := by
  obtain ⟨at_start, completed⟩ := completed_of_image see c image fits w first named
  have halted := completed.halted
  rw [at_start] at halted
  exact ⟨completed.ready.running, halted⟩

/-- One step into an image that halts, and one into an image that goes on. -/
theorem run_after_pulse_halt :
    let c := ((new {}).performAll (fun _ _ => ()) () [.reset #[0x76], .step]).1
    let d := ((new {}).performAll (fun _ _ => ()) () [.reset #[0x3C], .step]).1
    (c.machine.halted = true ∧
      c.pulseReset.run (fun _ _ => ()) 1 () =
        (c.pulseReset, (), .ok { halfTicks := 0, halted := true })) ∧
    (d.machine.halted = false ∧
      (d.pulseReset.run (fun _ _ => ()) (4 + 1) ()).1.machine.resetPending = false) := by
  obtain ⟨running, rests⟩ :=
    halted_of_image (fun _ _ => ()) (new {}) #[0x76] (by decide) rfl (by decide) ()
  obtain ⟨running', going⟩ :=
    halted_of_image (fun _ _ => ()) (new {}) #[0x3C] (by decide) rfl (by decide) ()
  exact ⟨⟨rests, (run_after_pulse (fun _ _ => ()) _ running () ()).2.1 rests 1⟩,
    going, ((run_after_pulse (fun _ _ => ()) _ running' () ()).1 going 4).2⟩

/-- A machine at rest is still at rest after a pulse and a run. -/
theorem run_ignores_pulse :
    let c := ((new {}).performAll (fun _ _ => ()) () [.reset #[0x76], .step]).1
    let p := (c.pulseReset.run (fun _ _ => ()) 1 ()).1
    let fresh := ((new {}).run (fun _ _ => ()) 0 ()).1
    c.machine.fault = none ∧ p.machine.sequencer ≠ fresh.machine.sequencer ∧
      p.machine.resetPending = true := by
  have any : ∀ c : Computer, c.machine.halted = true →
      let p := (c.pulseReset.run (fun _ _ => ()) 1 ()).1
      p.machine.sequencer ≠ ((new {}).run (fun _ _ => ()) 0 ()).1.machine.sequencer ∧
        p.machine.resetPending = true := by
    intro c rests p
    have still : p = c.pulseReset :=
      congrArg Prod.fst (run_pulse_of_halted (fun _ _ => ()) rests 1 ())
    rw [still]
    refine ⟨fun same => ?_, rfl⟩
    rw [Machine.halted, show c.machine.sequencer = _ from same] at rests
    exact absurd rests (by decide)
  obtain ⟨running, rests⟩ :=
    halted_of_image (fun _ _ => ()) (new {}) #[0x76] (by decide) rfl (by decide) ()
  exact ⟨running, any _ rests⟩

end Computer

end Micro8080
