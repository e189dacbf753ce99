import Micro8080.Proofs.Debugger.Host

/-! # Where runs stop

A run carries out the shortest execution after which its mode has it stop (`run_shortest`).  When
that is `stopAfter?` says in one place, by what the instructions so far did to the frames and where
they led.  The debugger decides it otherwise, with a depth that it keeps from one instruction to the
next; `awaited` is that depth, read off the instructions.

The mode decides nothing else.  However an execution is cut into runs, the computer and the frames
at its end are the same (`schedules_agree`).
-/

namespace Micro8080.Debugger

variable {d e : Debugger} {cs : List FrameChange} {mode : Mode} {depth max : Nat}

/-! ## What stops a run -/

/-- The depth that a return has to bring back for a run to stop there, if the run began at `depth`
and has carried out these instructions. -/
def awaited (mode : Mode) (depth : Nat) (cs : List FrameChange) : Option Nat :=
  match mode with
  | .over => if cs.head? = some .entered then some depth else none
  | .out => some (depth - 1)
  | .into | .continue => none

/-- The last instruction was the return that the run was for. -/
def steppedOut? (mode : Mode) (depth : Nat) (cs : List FrameChange) (e : Debugger) :
    Option StopEvent :=
  match cs.getLast? with
  | some (.returned frame) =>
    if awaited mode depth cs = some e.frames.size then
      some (.steppedOut frame.name e.computer.machine.pc)
    else none
  | _ => none

def halted? (e : Debugger) : Option StopEvent :=
  let m := e.computer.machine
  if m.halted then some (.halted m.haltReason m.pc) else none

/-- The run was for one instruction only: to step into it, or over one that is no call. -/
def single? (mode : Mode) (cs : List FrameChange) (e : Debugger) : Option StopEvent :=
  if mode = .into ∨ (mode = .over ∧ cs.head? ≠ some .entered) then
    some (.step e.computer.machine.pc)
  else none

/-- What stops a run that began at `depth` and has carried out these instructions.  The first that
applies is reported. -/
def stopAfter? (mode : Mode) (depth : Nat) (cs : List FrameChange) (e : Debugger) :
    Option StopEvent :=
  steppedOut? mode depth cs e <|> halted? e <|> e.breakpointEvent? <|> single? mode cs e

/-- No instruction up to the one of this number stops the run. -/
def Unstopped (mode : Mode) (d : Debugger) (n : Nat) : Prop :=
  ∀ cs e, Executes d cs e → cs ≠ [] → cs.length ≤ n → stopAfter? mode d.frames.size cs e = none

/-- A run of at most `max` instructions is the shortest execution that is not empty and stops it. -/
inductive Shortest (mode : Mode) (d : Debugger) (max : Nat) :
    Debugger → Except Fault Stop → Prop where
  | stops {cs : List FrameChange} {e : Debugger} {event : StopEvent} {n : Nat}
      (executes : Executes d cs e) (length : cs.length = n + 1) (within : n + 1 ≤ max)
      (unstopped : Unstopped mode d n)
      (stops : stopAfter? mode d.frames.size cs e = some event) :
      Shortest mode d max e (.ok { steps := n + 1, event })
  | spent {cs : List FrameChange} {e : Debugger} (executes : Executes d cs e)
      (length : cs.length = max) (unstopped : Unstopped mode d max) :
      Shortest mode d max e (.ok { steps := max, event := .budgetExhausted })
  | fails {cs : List FrameChange} {e : Debugger} {c : Computer} {f : Fault}
      (executes : Executes d cs e) (within : cs.length < max)
      (unstopped : Unstopped mode d cs.length) (fails : e.computer.next = (c, .error f)) :
      Shortest mode d max { e with computer := c } (.error f)

/-! ## The depth that is looked for -/

theorem awaited_of_ne_over (other : mode ≠ .over) (cs cs' : List FrameChange) :
    awaited mode depth cs = awaited mode depth cs' := by
  cases mode <;> first | rfl | exact absurd rfl other

theorem size_of_entered (entered : d.frameChange = .entered) :
    d.trackFrames.frames.size = d.frames.size + 1 := by
  simp only [trackFrames, entered, Array.size_push]

theorem nextTarget_eq (first : cs = [] → d.frames.size = depth)
    (called : mode = .over → cs ≠ [] → cs.head? = some .entered) :
    d.trackFrames.nextTarget mode (awaited mode depth cs) d.frameChange =
      awaited mode depth (cs ++ [d.frameChange]) := by
  by_cases other : mode = .over
  · subst other
    by_cases begins : cs = []
    · subst begins
      by_cases entered : d.frameChange = .entered
      · have size := size_of_entered entered
        simp [nextTarget, awaited, entered, size, first rfl]
      · simp [nextTarget, awaited, entered]
    · have head := called rfl begins
      simp [nextTarget, awaited, List.head?_append, head]
  · rw [awaited_of_ne_over other (cs ++ [d.frameChange]) cs]
    simp [nextTarget, other]

theorem halted_of_entered (coherent : d.computer.machine.Coherent)
    (entered : d.frameChange = .entered) : d.computer.machine.halted = false := by
  rw [Bool.eq_false_iff]
  intro halted
  obtain ⟨halts, -⟩ := coherent.of_halted halted
  simp only [frameChange] at entered
  cases opcode : Instruction.decode d.computer.machine.opcode with
  | halt => simp [opcode] at entered
  | unimplemented => simp [opcode] at entered
  | _ => simp [opcode, Instruction.halts] at halts

theorem stopEvent?_unchanged (mode : Mode) (depth : Nat) (cs : List FrameChange) (e : Debugger) :
    e.stopEvent? mode (awaited mode depth cs) .unchanged =
      (halted? e <|> e.breakpointEvent? <|> single? mode cs e) := by
  have single : single? mode cs e =
      if mode = .continue ∨ (mode ≠ .into ∧ awaited mode depth cs ≠ none) then none
      else some (.step e.computer.machine.pc) := by
    cases mode <;> simp [single?, awaited]
  rw [single]
  cases halted : e.computer.machine.halted with
  | true => simp [stopEvent?, halted?, halted]
  | false => cases at_pc : e.breakpointEvent? <;> simp [stopEvent?, halted?, halted, at_pc]

/-- The debugger stops a run where it is to stop. -/
theorem stopEvent?_eq (coherent : d.computer.machine.Coherent)
    (last : cs.getLast? = some d.frameChange)
    (called : mode = .over → d.frameChange = .entered → cs.head? = some .entered) :
    d.trackFrames.stopEvent? mode (awaited mode depth cs) d.frameChange =
      stopAfter? mode depth cs d.trackFrames := by
  have running := halted_of_entered (d := d) coherent
  rw [← trackFrames_computer d] at running
  generalize d.trackFrames = e at running ⊢
  generalize d.frameChange = change at last called running ⊢
  have rest := stopEvent?_unchanged mode depth cs e
  cases change with
  | entered =>
    have skips : steppedOut? mode depth cs e = none := by simp only [steppedOut?, last]
    have decides : e.stopEvent? mode (awaited mode depth cs) .entered =
        if mode = .into then e.stopEvent? mode (awaited mode depth cs) .unchanged
        else e.breakpointEvent? := rfl
    rw [decides, stopAfter?, skips]
    by_cases into : mode = .into
    · rw [if_pos into, rest]
      rfl
    · -- after a call only a breakpoint stops a run that does not step into it
      rw [if_neg into]
      cases mode <;> simp_all [halted?, single?]
  | returned frame =>
    have decides : e.stopEvent? mode (awaited mode depth cs) (.returned frame) =
        if mode ≠ .into ∧ awaited mode depth cs = some e.frames.size then
          some (.steppedOut frame.name e.computer.machine.pc)
        else e.stopEvent? mode (awaited mode depth cs) .unchanged := rfl
    rw [decides, stopAfter?, rest]
    by_cases back : awaited mode depth cs = some e.frames.size
    · have into : mode ≠ .into := by
        rintro rfl
        cases back
      simp [steppedOut?, last, back, into]
    · simp [steppedOut?, last, back]
  | unchanged =>
    have skips : steppedOut? mode depth cs e = none := by simp only [steppedOut?, last]
    rw [stopAfter?, skips, rest]
    rfl

/-! ## Runs are shortest -/

/-- To go on after one instruction a run over it has to have met a call. -/
theorem head?_of_goes (goes : stopAfter? .over depth cs e = none) : cs.head? = some .entered := by
  simp only [stopAfter?, Option.orElse_eq_orElse, Option.orElse_eq_or, Option.or_eq_none_iff] at goes
  obtain ⟨-, -, -, single⟩ := goes
  by_cases head : cs.head? = some .entered
  · exact head
  · simp [single?, head] at single

/-- What is true of a run that has not stopped yet. -/
structure Underway (mode : Mode) (d : Debugger) (cs : List FrameChange) (target : Option Nat)
    (e : Debugger) : Prop where
  executes : Executes d cs e
  coherent : e.computer.machine.Coherent
  target : target = awaited mode d.frames.size cs
  called : mode = .over → cs ≠ [] → cs.head? = some .entered
  unstopped : Unstopped mode d cs.length

/-- After one more instruction the debugger decides as it should. -/
theorem Underway.decides {target : Option Nat} {c : Computer}
    (h : Underway mode d cs target e) (ok : e.computer.next = (c, .ok ())) :
    let e' := { e with computer := c }
    c.machine.Coherent ∧
      e'.targetAfter mode target = awaited mode d.frames.size (cs ++ [e'.frameChange]) ∧
      e'.eventAfter? mode target =
        stopAfter? mode d.frames.size (cs ++ [e'.frameChange]) e'.trackFrames := by
  intro e'
  have coherent := Computer.coherent_of_next h.coherent ok
  have looks : e'.targetAfter mode target =
      awaited mode d.frames.size (cs ++ [e'.frameChange]) := by
    rw [h.target]
    refine nextTarget_eq (d := e') ?_ h.called
    intro begins
    obtain ⟨-, same⟩ := h.executes.unique .none (by rw [begins])
    rw [← same]
  refine ⟨coherent, looks, ?_⟩
  rw [eventAfter?, looks]
  refine stopEvent?_eq (d := e') coherent List.getLast?_concat ?_
  intro stepsOver entered
  by_cases begins : cs = []
  · rw [begins, entered]
    rfl
  · rw [List.head?_append, h.called stepsOver begins]
    rfl

theorem Trails.underway {target : Option Nat} (h : Trails mode d cs target e)
    (coherent : d.computer.machine.Coherent) (inner : mode = .out → 1 < d.frames.size) :
    Underway mode d cs target e := by
  induction h with
  | none =>
    refine ⟨.none, coherent, ?_, fun _ nonempty => absurd rfl nonempty, ?_⟩
    · cases mode with
      | out => simp [initialTarget, awaited, inner rfl]
      | _ => rfl
    · intro cs e _ nonempty short
      exact absurd (List.length_eq_zero_iff.1 (Nat.le_zero.1 short)) nonempty
  | @one e cs target c before ok goes ih =>
    obtain ⟨after, target, decision⟩ := ih.decides ok
    have executes := ih.executes.one ok
    rw [decision] at goes
    refine ⟨executes, ?_, target, ?_, ?_⟩
    · rw [trackFrames_computer]
      exact after
    · rintro rfl -
      exact head?_of_goes goes
    · intro cs' e' executes' nonempty short
      by_cases earlier : cs'.length ≤ cs.length
      · exact ih.unstopped cs' e' executes' nonempty earlier
      · have same : cs'.length = (cs ++ [{ e with computer := c }.frameChange]).length := by
          rw [List.length_append, List.length_singleton] at short ⊢
          omega
        obtain ⟨rfl, rfl⟩ := executes'.unique executes same
        exact goes

theorem Outcome.shortest {r : Except Fault Stop} (h : Outcome mode d max e r)
    (coherent : d.computer.machine.Coherent) (inner : mode = .out → 1 < d.frames.size) :
    Shortest mode d max e r := by
  cases h with
  | spent trails all =>
    have underway := trails.underway coherent inner
    exact .spent underway.executes all (all ▸ underway.unstopped)
  | fails trails within fails =>
    have underway := trails.underway coherent inner
    exact .fails underway.executes within underway.unstopped fails
  | stops trails within ok stops =>
    have underway := trails.underway coherent inner
    obtain ⟨-, -, decision⟩ := underway.decides ok
    rw [decision] at stops
    exact .stops (underway.executes.one ok) List.length_append within underway.unstopped stops

theorem Shortest.eq_of_stops {e' : Debugger} {r : Except Fault Stop} {event : StopEvent} {n : Nat}
    (h : Shortest mode d max e' r) (executes : Executes d cs e) (length : cs.length = n + 1)
    (within : n + 1 ≤ max) (unstopped : Unstopped mode d n)
    (stops : stopAfter? mode d.frames.size cs e = some event) :
    e' = e ∧ r = .ok { steps := n + 1, event } := by
  have nonempty : cs ≠ [] := List.ne_nil_of_length_eq_add_one length
  -- of two executions the longer goes on where the shorter has stopped
  cases h with
  | @stops cs' _ event' k executes' length' within' unstopped' stops' =>
    have nonempty' : cs' ≠ [] := List.ne_nil_of_length_eq_add_one length'
    rcases Nat.lt_trichotomy k n with earlier | rfl | later
    · rw [unstopped cs' e' executes' nonempty' (by omega)] at stops'
      cases stops'
    · obtain ⟨rfl, rfl⟩ := executes'.unique executes (by omega)
      rw [stops] at stops'
      cases stops'
      exact ⟨rfl, rfl⟩
    · rw [unstopped' cs e executes nonempty (by omega)] at stops
      cases stops
  | spent executes' length' unstopped' =>
    rw [unstopped' cs e executes nonempty (by omega)] at stops
    cases stops
  | @fails cs' e₀ c f executes' within' unstopped' fails =>
    by_cases later : n + 1 ≤ cs'.length
    · rw [unstopped' cs e executes nonempty (by omega)] at stops
      cases stops
    · obtain ⟨c', ok⟩ := executes.next_of_lt executes' (by omega)
      rw [ok] at fails
      cases fails

/-! ## Events -/

theorem Executes.head?_eq {change : FrameChange} {e₁ : Debugger} (h : Executes d cs e)
    (first : Executes d [change] e₁) (nonempty : cs ≠ []) : cs.head? = some change := by
  induction h with
  | none => exact absurd rfl nonempty
  | @one e cs c before ok ih =>
    by_cases begins : cs = []
    · subst begins
      obtain ⟨same, -⟩ := (before.one ok).unique first rfl
      rw [same]
      rfl
    · rw [List.head?_append, ih begins]
      rfl

theorem mode_of_stopAfter? {event : StopEvent} (h : stopAfter? mode depth cs e = some event) :
    (∀ frame pc, event = .steppedOut frame pc → mode = .over ∨ mode = .out) ∧
      ∀ pc, event = .step pc → mode = .into ∨ (mode = .over ∧ cs.head? ≠ some .entered) := by
  simp only [stopAfter?, Option.orElse_eq_orElse, Option.orElse_eq_or, Option.or_eq_some_iff] at h
  rcases h with back | ⟨-, rest | ⟨-, at_break | ⟨-, single⟩⟩⟩
  · simp only [steppedOut?] at back
    split at back
    · split at back
      · next frame _ awaits =>
        cases back
        refine ⟨fun _ _ _ => ?_, nofun⟩
        cases mode <;> simp_all [awaited]
      · cases back
    · cases back
  · simp only [halted?] at rest
    split at rest <;> cases rest
    exact ⟨nofun, nofun⟩
  · simp only [breakpointEvent?] at at_break
    split at at_break <;> cases at_break
    exact ⟨nofun, nofun⟩
  · simp only [single?] at single
    split at single
    · next one =>
      cases single
      exact ⟨nofun, fun _ _ => one⟩
    · cases single

theorem Shortest.mode_of_event {stop : Stop} (h : Shortest mode d max e (.ok stop)) :
    (∀ frame pc, stop.event = .steppedOut frame pc → mode = .over ∨ mode = .out) ∧
      ∀ pc, stop.event = .step pc →
        mode = .into ∨ (mode = .over ∧ ∀ e₁, ¬ Executes d [.entered] e₁) := by
  cases h with
  | @stops cs _ event n executes length within unstopped stops =>
    obtain ⟨back, step⟩ := mode_of_stopAfter? stops
    refine ⟨back, ?_⟩
    intro pc stepped
    rcases step pc stepped with into | ⟨stepsOver, head⟩
    · exact .inl into
    · refine .inr ⟨stepsOver, ?_⟩
      intro e₁ first
      exact head (executes.head?_eq first (List.ne_nil_of_length_eq_add_one length))
  | spent =>
    exact ⟨nofun, nofun⟩

/-! ## Hosts -/

variable {ω : Type} (see : ω → Event → ω)

/-- Wherever a host has brought a debugger, a run is the shortest execution that stops it, or all
that the budget allows, or ends where an instruction fails.  Between two instructions the debugger
takes what they do for what it is, and a host that leaves the computer alone finds the machine there
or stopped by an error. -/
theorem run_shortest (p : Program) (k : Config) :
    ∃ d₀, new p k = .ok d₀ ∧ ∀ (accesses : List Access) (w : ω),
      let d := (d₀.accessAll see w accesses).1
      (∀ mode max v, (mode = .out → 1 < d.frames.size) →
        let t := d.run see mode max v
        Shortest mode d max t.1 t.2.2 ∧
        ∀ stop, t.2.2 = .ok stop →
          (∀ frame pc, stop.event = .steppedOut frame pc → mode = .over ∨ mode = .out) ∧
          ∀ pc, stop.event = .step pc →
            mode = .into ∨ (mode = .over ∧ ∀ e, ¬ Executes d [.entered] e)) ∧
      (d.computer.machine.Ready → ∀ cs e c, Executes d cs e → e.computer.next = (c, .ok ()) →
        Faithful e c) ∧
      ((∀ a ∈ accesses, ∃ op, a = .operation op) →
        d.computer.machine.Ready ∨ ∃ f, d.computer.next.2 = .error f) := by
  let d₀ : Debugger := { computer := ((Computer.new k).reset p.image).1, program := p }
  have begins : d₀.Attends := attends_of_reset (Computer.new k) p.image rfl
  refine ⟨d₀, new_eq p k, ?_⟩
  intro accesses w d
  refine ⟨?_, ?_, ?_⟩
  · intro mode max v inner t
    have coherent : d.computer.machine.Coherent := accessAll_coherent see begins.coherent w accesses
    have shortest : Shortest mode d max t.1 t.2.2 :=
      (run_outcome see mode max d v).shortest coherent inner
    refine ⟨shortest, ?_⟩
    intro stop ran
    rw [ran] at shortest
    exact shortest.mode_of_event
  · intro ready cs e c executes ok
    exact faithful_of_ready (executes.ready ready) ok
  · intro own
    rcases (accessAll_attends see begins w own).rests with ready | ⟨f, latched⟩
    · exact .inl ready
    · exact .inr ⟨f, (Computer.next_of_latched latched).1⟩

theorem run_shortest_over :
    (calling.run (fun _ _ => ()) .over 2 ()).2.2 =
      .ok { steps := 2, event := .steppedOut "sub" 3 } := by
  obtain ⟨d, begins, all⟩ := run_shortest (fun _ _ => ()) calling.program {}
  rw [new_eq] at begins
  have same : calling = d := Except.ok.inj begins
  obtain ⟨runs, -⟩ := all [] ()
  have shortest : Shortest .over d 2 _ (d.run (fun _ _ => ()) .over 2 ()).2.2 :=
    (runs .over 2 () nofun).1
  obtain ⟨-, -, -, operand, calls⟩ := calling_calls
  have pc : calling.computer.machine.programState.pc = 0 :=
    (Computer.calls_subroutine (Computer.new {})).1
  have ready : calling.computer.machine.Ready := Machine.ready_powerOn Computer.subroutine
  have returns := Computer.returns_from_subroutine (Computer.new {})
  have start : ((Computer.new {}).reset Computer.subroutine).1 = calling.computer := rfl
  have frames : calling.frames = #[rootFrame] := rfl
  have breakpoints : calling.breakpoints = [] := rfl
  have name : (frameOf calling.program.labels calling.computer.machine.programState).name =
      "sub" := by
    rw [frameOf, operand]
    decide
  rw [start] at returns
  rw [same] at *
  clear all runs begins start same
  obtain ⟨e₁, first, done₁, running, frames₁⟩ := (Executes.none (d := d)).call ready calls
  have returns₁ : e₁.computer.machine.programState.returns = true := done₁.state ▸ returns
  obtain ⟨e₂, both, done₂, frames₂⟩ :=
    first.ret done₁.ready returns₁ frames₁ (by rw [frames]; decide)
  have back : e₂.computer.machine.pc = 3 := by
    have empty : Stacks d.computer.machine.programState.sp d.computer.machine.programState [] :=
      ⟨(UInt16.sub_zero _).symm, Nat.zero_le _, trivial⟩
    have address := (empty.opened (.inr calls) (by decide)).returned calls
    rw [← done₁.state, pc] at address
    have there := congrArg ProgramState.pc done₂.state
    rw [ProgramState.execute_of_returns returns₁] at there
    exact there.trans address
  have unstopped : Unstopped .over d 1 := by
    intro cs e executes nonempty short
    have one : cs.length = 1 :=
      Nat.le_antisymm short (List.length_pos_iff.2 nonempty)
    obtain ⟨rfl, rfl⟩ := executes.unique first one
    have unset := (executes.keeps).2.trans breakpoints
    simp [stopAfter?, steppedOut?, halted?, single?, breakpointEvent?, running, unset]
  have stops : stopAfter? .over d.frames.size
      ([] ++ [.entered] ++ [.returned (frameOf d.program.labels d.computer.machine.programState)])
        e₂ = some (.steppedOut "sub" 3) := by
    simp [stopAfter?, steppedOut?, awaited, frames₂, name, back]
  exact (shortest.eq_of_stops both rfl (Nat.le_refl 2) unstopped stops).2

/-! ## Schedules -/

variable {ω' : Type} (see' : ω' → Event → ω')

/-- Two lists of runs and edits of the breakpoints that have carried out as many instructions leave
the same computer and the same frames, whatever their modes, budgets, breakpoints and watchers. -/
theorem schedules_agree (d : Debugger) (w : ω) (w' : ω') {ops ops' : List Operation}
    (goes : .restart ∉ ops) (goes' : .restart ∉ ops') {n : Nat}
    (ran : (d.performAll see w ops).2.2 = .ok n)
    (ran' : (d.performAll see' w' ops').2.2 = .ok n) :
    (d.performAll see w ops).1.computer = (d.performAll see' w' ops').1.computer ∧
      (d.performAll see w ops).1.frames = (d.performAll see' w' ops').1.frames := by
  obtain ⟨cs, e, executes, length, reached⟩ := performAll_executes see goes w ran
  obtain ⟨cs', e', executes', length', reached'⟩ := performAll_executes see' goes' w' ran'
  obtain ⟨-, rfl⟩ := executes.unique executes' (length.trans length'.symm)
  rw [reached, reached']
  exact ⟨rfl, rfl⟩

theorem schedules_agree_call :
    let run := calling.performAll (fun _ _ => ()) () [.run .over 1]
    let run' := calling.performAll (fun _ _ => ()) () [.setBreakpoint 4, .run .continue 1]
    run.2.2 = .ok 1 ∧ run'.2.2 = .ok 1 ∧ run.1.computer = run'.1.computer ∧
      run.1.frames = run'.1.frames := by
  have ran {d : Debugger} {c : Computer} (ok : d.computer.next = (c, .ok ())) :
      (d.performAll (fun _ _ => ()) () [.run .over 1]).2.2 = .ok 1 := by
    simp only [performAll, perform, (run_one (fun _ _ => ()) .over ok ()).2]
    rfl
  have ran' {d : Debugger} {c : Computer} (ok : d.computer.next = (c, .ok ())) :
      (d.performAll (fun _ _ => ()) () [.setBreakpoint 4, .run .continue 1]).2.2 = .ok 1 := by
    have set : (d.setBreakpoint 4).1.computer.next = (c, .ok ()) := ok
    simp only [performAll, perform, (run_one (fun _ _ => ()) .continue set ()).2]
    rfl
  obtain ⟨c, ok, -⟩ := calling_calls
  intro run run'
  exact ⟨ran ok, ran' ok,
    schedules_agree _ _ calling () () (by decide) (by decide) (ran ok) (ran' ok)⟩

end Micro8080.Debugger
