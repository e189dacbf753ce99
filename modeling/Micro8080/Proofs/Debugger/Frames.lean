import Micro8080.Proofs.Debugger.Host
import Micro8080.Proofs.Debugger.Labels

/-! # Frames are open calls

A debugger that has its computer to itself shows, below the root, one frame for each call that the
program has taken and not come back from (`frames_are_open_calls`).  The calls are those of the
program: `openCalls` goes through the instructions that it has executed since it was switched on,
and looks at nothing that the debugger keeps.

The induction is on what the host does.  It carries `Follows`, which says besides that what the
program will execute from here on is what its present state will execute.
-/

namespace Micro8080

namespace ProgramState

/-- What the instruction that is executed from `s` does to the open calls, innermost first.  A
return closes the innermost one, if there is any. -/
def track (pending : List ProgramState) (s : ProgramState) : List ProgramState :=
  if s.calls then s :: pending else if s.returns then pending.tail else pending

/-- The calls that are open after these instructions, innermost first. -/
def openCalls (executed : List ProgramState) : List ProgramState := executed.foldl track []

theorem openCalls_concat (executed : List ProgramState) (s : ProgramState) :
    openCalls (executed ++ [s]) = track (openCalls executed) s := by
  simp [openCalls]

theorem track_of_adjusts {s : ProgramState} (named : s.instruction.operation? = some .daa)
    (pending : List ProgramState) : track pending s = pending := by
  have other : s.calls = false ∧ s.returns = false := by
    cases at_pc : s.instruction with
    | call k => rw [at_pc] at named; cases named
    | ret k => rw [at_pc] at named; cases named
    | _ => simp [calls, returns, at_pc]
  simp [track, other]

end ProgramState

namespace Debugger

open ProgramState

variable {d : Debugger} {c : Computer} {start : ProgramState} {p : Program}

/-- The root, and a frame for each open call, from the outermost in. -/
def framesOf (labels : Labels) (pending : List ProgramState) : List Frame :=
  rootFrame :: pending.reverse.map (frameOf labels)

theorem frames_track {pending : List ProgramState}
    (done : d.computer.machine.Completed c.machine)
    (before : d.frames.toList = framesOf d.program.labels pending) :
    { d with computer := c }.trackFrames.frames.toList =
      framesOf d.program.labels (track pending d.computer.machine.programState) := by
  have size := congrArg List.length before
  simp only [framesOf, Array.length_toList, List.length_cons, List.length_map,
    List.length_reverse] at size
  rw [frames_of_completed done, track]
  by_cases calls : d.computer.machine.programState.calls = true
  · simp [calls, before, framesOf]
  · by_cases returns : d.computer.machine.programState.returns = true
    · cases pending with
      | nil =>
        have root : ¬ 1 < d.frames.size := by simp [size]
        simp [calls, returns, root, before]
      | cons s rest =>
        have room : 1 < d.frames.size := by simp [size]
        simp only [calls, returns, room, before, framesOf, Bool.false_eq_true, if_false, and_self,
          if_true, Array.toList_pop, List.reverse_cons, List.map_append, List.map_singleton,
          List.tail_cons]
        rw [← List.cons_append, List.dropLast_concat]
    · simp [calls, returns, before]

/-- The debugger shows the calls that the program has left open since it began at `start`, and the
program goes on as its present state says. -/
structure Follows (start : ProgramState) (p : Program) (d : Debugger) : Prop extends Attends d where
  program : d.program = p
  frames : d.frames.toList =
    framesOf p.labels (openCalls (start.executed d.computer.machine.clock.halfTicks))
  pace : d.computer.machine.Ready → ∀ n,
    start.executed (d.computer.machine.clock.halfTicks + n) =
      start.executed d.computer.machine.clock.halfTicks ++
        d.computer.machine.programState.executed n

/-- An instruction that is carried out is one more that the program has executed. -/
theorem Follows.executed_next (h : d.Follows start p) (ok : d.computer.next = (c, .ok ())) :
    start.executed c.machine.clock.halfTicks =
        start.executed d.computer.machine.clock.halfTicks ++
          [d.computer.machine.programState] ∧
      ∀ n, start.executed (c.machine.clock.halfTicks + n) =
        start.executed c.machine.clock.halfTicks ++ c.machine.programState.executed n := by
  obtain ⟨ready, -⟩ := h.toAttends.instruction ok
  have done := Computer.completed_of_next ready ok
  have later (n : Nat) : start.executed (c.machine.clock.halfTicks + n) =
      start.executed d.computer.machine.clock.halfTicks ++
        d.computer.machine.programState :: c.machine.programState.executed n := by
    rw [done.clock, Nat.add_assoc, h.pace ready, executed_add, done.state]
  have now : start.executed c.machine.clock.halfTicks =
      start.executed d.computer.machine.clock.halfTicks ++ [d.computer.machine.programState] := by
    have early : c.machine.programState.executed 0 = [] := executed_early (by omega)
    rw [← Nat.add_zero c.machine.clock.halfTicks, later, early]
  refine ⟨now, ?_⟩
  intro n
  rw [later, now, List.append_assoc]
  rfl

theorem Follows.instruction (h : d.Follows start p) (ok : d.computer.next = (c, .ok ())) :
    { d with computer := c }.trackFrames.Follows start p := by
  obtain ⟨ready, attends⟩ := h.toAttends.instruction ok
  obtain ⟨now, later⟩ := h.executed_next ok
  have same := trackFrames_computer { d with computer := c }
  have frames := h.frames
  rw [← h.program] at frames
  refine ⟨attends, ?_, ?_, ?_⟩
  · rw [trackFrames_eq]
    exact h.program
  · rw [same, now, openCalls_concat, ← h.program]
    exact frames_track (Computer.completed_of_next ready ok) frames
  · intro _ n
    rw [same]
    exact later n

theorem Follows.failure {f : Fault} (h : d.Follows start p)
    (fails : d.computer.next = (c, .error f)) : { d with computer := c }.Follows start p := by
  obtain ⟨attends, g, latched⟩ := h.toAttends.failure fails
  refine ⟨attends, h.program, ?_, ?_⟩
  · rcases h.rests with ready | ⟨f', before⟩
    · obtain ⟨named, clock, -⟩ := Computer.refused_of_next h.coherent ready fails
      have long := d.computer.machine.programState.halfTicks_ge
      have one : d.computer.machine.programState.executed 7 =
          [d.computer.machine.programState] := executed_one (Nat.le_refl 7) (by omega)
      simp only [clock, h.pace ready, one, openCalls_concat, track_of_adjusts named]
      exact h.frames
    · have same := (Computer.next_of_latched before).2
      rw [fails] at same
      have clock : c.machine.clock = d.computer.machine.clock := by
        rw [show c.machine = _ from same]
        rfl
      simp only [clock]
      exact h.frames
  · intro ready
    have running := ready.running
    rw [latched] at running
    cases running

theorem follows_of_reset {c : Computer} (fresh : d.computer = (c.reset p.image).1)
    (program : d.program = p) (frames : d.frames = #[rootFrame]) :
    d.Follows (Machine.powerOn p.image).1.programState p := by
  have zero : d.computer.machine.clock.halfTicks = 0 := by
    rw [fresh]
    exact (Computer.fresh_reset c p.image).1
  have none : (Machine.powerOn p.image).1.programState.executed 0 = [] :=
    executed_early (by omega)
  refine ⟨attends_of_reset c p.image fresh, program, ?_, ?_⟩
  · rw [zero, none, frames]
    rfl
  · intro _ n
    rw [zero, none, Nat.zero_add, fresh]
    rfl

theorem Follows.executes {cs : List FrameChange} {e : Debugger} (h : d.Follows start p)
    (executes : Executes d cs e) :
    e.Follows start p ∧ ∃ more, more.length = cs.length ∧
      start.executed e.computer.machine.clock.halfTicks =
        start.executed d.computer.machine.clock.halfTicks ++ more := by
  induction executes with
  | none => exact ⟨h, [], rfl, (List.append_nil _).symm⟩
  | @one e cs c before ok ih =>
    obtain ⟨follows, more, length, executed⟩ := ih
    refine ⟨follows.instruction ok, more ++ [e.computer.machine.programState], ?_, ?_⟩
    · rw [List.length_append, List.length_append, length]
      rfl
    · rw [trackFrames_computer, (follows.executed_next ok).1, executed, List.append_assoc]

variable {ω : Type} (see : ω → Event → ω)

/-- Whatever the host asks for, the frames are the root and the calls that the program has left open
since it was switched on.  A run adds as many instructions as it reports, and a restart forgets them
all; where an instruction fails, the frames are as they were before it.  A frame goes by its address
and by the first label there. -/
theorem frames_are_open_calls (image : Array UInt8) (fits : image.size ≤ Memory.capacity)
    (entries : List (String × UInt16)) (k : Config) :
    let labels := Labels.ofList entries
    let start := (Machine.powerOn image).1.programState
    let executed (d : Debugger) := start.executed d.computer.machine.clock.halfTicks
    (∃ d₀, new { image, labels, fits } k = .ok d₀ ∧ executed d₀ = [] ∧
      ∀ (w : ω) (ops : List Operation),
        let d := (d₀.performAll see w ops).1
        d.frames.toList = rootFrame :: (openCalls (executed d)).reverse.map (frameOf labels) ∧
        executed d.restart.1 = [] ∧
        (∀ mode budget v d' v' stop, d.run see mode budget v = (d', v', .ok stop) →
          ∃ more, more.length = stop.steps ∧ executed d' = executed d ++ more) ∧
        ∀ mode budget v d' v' f, d.run see mode budget v = (d', v', .error f) →
          ∃ cs e c, Executes d cs e ∧ e.computer.next = (c, .error f) ∧
            d' = { e with computer := c }) ∧
    ∀ s, let frame := frameOf labels s
      frame.entry = s.operandWord ∧
        ((Labels.placed? entries frame.name = some frame.entry ∧
            ∀ n, Labels.placed? entries n = some frame.entry → frame.name ≤ n) ∨
          (frame.name = "unknown" ∧ ∀ n, Labels.placed? entries n ≠ some frame.entry)) := by
  intro labels start executed
  let p : Program := { image, labels, fits }
  let d₀ : Debugger := { computer := ((Computer.new k).reset image).1, program := p }
  have fresh {d : Debugger} (zero : d.computer.machine.clock.halfTicks = 0) : executed d = [] :=
    executed_early (by omega)
  refine ⟨⟨d₀, new_eq p k, fresh (Computer.fresh_reset (Computer.new k) image).1, ?_⟩, ?_⟩
  · intro w ops d
    have begins : d₀.Follows start p :=
      follows_of_reset (p := p) (c := Computer.new k) rfl rfl rfl
    have follows : d.Follows start p := by
      refine performAll_invariant see (fun _ _ h ok => h.instruction ok)
        (fun _ _ _ h fails => h.failure fails)
        (fun _ _ h => ⟨⟨h.coherent, h.rests⟩, h.program, h.frames, h.pace⟩) ?_ begins w ops
      intro d h
      rw [restart_eq]
      exact follows_of_reset (p := p) (c := d.computer) (by rw [h.program]) h.program rfl
    refine ⟨follows.frames, fresh ?_, ?_, ?_⟩
    · rw [restart_eq]
      exact (Computer.fresh_reset d.computer d.program.image).1
    · intro mode budget v d' v' stop ran
      have outcome := run_outcome see mode budget d v
      rw [ran] at outcome
      obtain ⟨cs, executes, length⟩ := outcome.executes
      rw [← length]
      exact (follows.executes executes).2
    · intro mode budget v d' v' f fails
      have outcome := run_outcome see mode budget d v
      rw [fails] at outcome
      exact outcome.failed
  · intro s frame
    refine ⟨rfl, ?_⟩
    rcases Labels.nameAt?_ofList entries s.operandWord with ⟨name, found, least⟩ | ⟨missing, nowhere⟩
    · have own : frame.name = name := by simp [frame, frameOf, labels, found]
      rw [own]
      exact .inl least
    · have own : frame.name = "unknown" := by simp [frame, frameOf, labels, missing, unnamed]
      exact .inr ⟨own, nowhere⟩

theorem frames_are_open_calls_sub :
    (calling.performAll (fun _ _ => ()) () [.run .into 1]).1.frames.toList =
      [rootFrame, { name := "sub", entry := 4 }] := by
  obtain ⟨⟨d, begins, -, all⟩, -⟩ := frames_are_open_calls (fun _ _ => ()) Computer.subroutine
    Computer.subroutine_fits [("sub", 4)] {}
  rw [new_eq] at begins
  have same : calling = d := Except.ok.inj begins
  have start : (Machine.powerOn Computer.subroutine).1.programState =
      calling.computer.machine.programState := rfl
  have zero : calling.computer.machine.clock.halfTicks = 0 :=
    (Computer.fresh_reset (Computer.new {}) Computer.subroutine).1
  obtain ⟨c, ok, done, operand, calls⟩ := calling_calls
  obtain ⟨frames, -⟩ := all () [.run .into 1]
  rw [start] at frames
  rw [same] at done operand calls zero ok frames ⊢
  have one : (d.performAll (fun _ _ => ()) () [.run .into 1]).1 =
      { d with computer := c }.trackFrames := (run_one (fun _ _ => ()) .into ok ()).1
  have clock := done.clock
  rw [zero, Nat.zero_add] at clock
  have long := d.computer.machine.programState.halfTicks_ge
  have executed : d.computer.machine.programState.executed c.machine.clock.halfTicks =
      [d.computer.machine.programState] := executed_one (by omega) (Nat.le_of_eq clock)
  have name : (Labels.ofList [("sub", 4)]).nameAt? 4 = some "sub" := by decide
  rw [frames, one]
  simp [trackFrames_computer, executed, openCalls, track, calls, frameOf, operand, name]

end Debugger

end Micro8080
