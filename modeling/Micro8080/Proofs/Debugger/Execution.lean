import Micro8080.Debugger.Basic
import Micro8080.Proofs.Computer.Timeline

/-! # Executions under a debugger

A debugger carries out one instruction after the other and keeps the frames after each.
`Executes` is this and nothing else: it knows of no mode, no budget, no breakpoint and no watcher,
and there is one execution of each length (`Executes.unique`).

A run is an execution that its mode has not stopped before its end.  `run_outcome` is the one
induction on the budget that says so, and what is to be shown of runs is shown of executions from
there on.
-/

namespace Micro8080

namespace Computer

/-- The computer after a step that nobody watches, and what came back. -/
def next (c : Computer) : Computer × Except Fault Unit :=
  let t := c.step (fun _ _ => ()) ()
  (t.1, t.2.2)

variable {ω : Type} (see : ω → Event → ω)

theorem step_eq_next (c : Computer) (w : ω) :
    (c.step see w).1 = c.next.1 ∧ (c.step see w).2.2 = c.next.2 := by
  refine ⟨?_, ?_⟩
  · simp only [next, step, adopt, Machine.step_eq, Moment.seen, foldl_watch_history]
  · rw [next, result_step, result_step]

end Computer

namespace Debugger

variable {d e : Debugger} {cs : List FrameChange} {c : Computer} {f : Fault}

/-! ## Instructions -/

/-- Instructions that were carried out one after the other have led from `d` here.  The list says
what each of them did to the frames. -/
inductive Executes (d : Debugger) : List FrameChange → Debugger → Prop where
  | none : Executes d [] d
  | one {e : Debugger} {cs : List FrameChange} {c : Computer} (before : Executes d cs e)
      (ok : e.computer.next = (c, .ok ())) :
      Executes d (cs ++ [{ e with computer := c }.frameChange]) { e with computer := c }.trackFrames

theorem trackFrames_eq (d : Debugger) :
    d.trackFrames = { d with frames := d.trackFrames.frames } := by
  simp only [trackFrames]
  split <;> rfl

theorem trackFrames_computer (d : Debugger) : d.trackFrames.computer = d.computer := by
  rw [trackFrames_eq]

theorem Executes.keeps (h : Executes d cs e) :
    e.program = d.program ∧ e.breakpoints = d.breakpoints := by
  induction h with
  | none => exact ⟨rfl, rfl⟩
  | one before ok ih =>
    rw [trackFrames_eq]
    exact ih

/-- As many instructions from the same debugger are the same instructions. -/
theorem Executes.unique {cs' : List FrameChange} {e' : Debugger} (h : Executes d cs e)
    (g : Executes d cs' e') (same : cs.length = cs'.length) : cs = cs' ∧ e = e' := by
  induction h generalizing cs' e' with
  | none =>
    cases g with
    | none => exact ⟨rfl, rfl⟩
    | one => simp at same
  | one before ok ih =>
    cases g with
    | none => simp at same
    | one before' ok' =>
      simp only [List.length_append, List.length_singleton, Nat.add_right_cancel_iff] at same
      obtain ⟨rfl, rfl⟩ := ih before' same
      rw [ok] at ok'
      cases ok'
      exact ⟨rfl, rfl⟩

theorem Executes.next_of_lt {cs' : List FrameChange} {e' : Debugger} (h : Executes d cs e)
    (g : Executes d cs' e') (lt : cs'.length < cs.length) :
    ∃ c, e'.computer.next = (c, .ok ()) := by
  induction h with
  | none => simp at lt
  | @one e cs c before ok ih =>
    rw [List.length_append, List.length_singleton] at lt
    by_cases earlier : cs'.length < cs.length
    · exact ih earlier
    · obtain ⟨-, rfl⟩ := g.unique before (by omega)
      exact ⟨c, ok⟩

theorem Executes.append {cs' : List FrameChange} {e' : Debugger} (h : Executes d cs e)
    (g : Executes e cs' e') : Executes d (cs ++ cs') e' := by
  induction g with
  | none =>
    rw [List.append_nil]
    exact h
  | one before ok ih =>
    rw [← List.append_assoc]
    exact .one ih ok

theorem Executes.withBreakpoints (h : Executes d cs e) (bs : List UInt16) :
    Executes { d with breakpoints := bs } cs { e with breakpoints := bs } := by
  induction h with
  | none => exact .none
  | @one e cs c before ok ih =>
    have change : { e with computer := c, breakpoints := bs }.frameChange =
        { e with computer := c }.frameChange := rfl
    have track : { e with computer := c, breakpoints := bs }.trackFrames =
        { { e with computer := c }.trackFrames with breakpoints := bs } := by
      simp only [trackFrames, change]
      split <;> rfl
    rw [← change, ← track]
    exact .one ih ok

/-- What holds of computers and is kept by successful steps holds after an execution. -/
theorem Executes.invariant {P : Computer → Prop} (h : Executes d cs e) (start : P d.computer)
    (step : ∀ c c', P c → c.next = (c', .ok ()) → P c') : P e.computer := by
  induction h with
  | none => exact start
  | one before ok ih =>
    rw [trackFrames_computer]
    exact step _ _ ih ok

/-! ## Runs -/

/-- The depth that a run looks for once the computer has carried out an instruction. -/
def targetAfter (d : Debugger) (mode : Mode) (target : Option Nat) : Option Nat :=
  d.trackFrames.nextTarget mode target d.frameChange

/-- Why the run stops there, if it does. -/
def eventAfter? (d : Debugger) (mode : Mode) (target : Option Nat) : Option StopEvent :=
  d.trackFrames.stopEvent? mode (d.targetAfter mode target) d.frameChange

/-- An execution that a run in this mode has got through without stopping, with the depth that the
run looks for by then. -/
inductive Trails (mode : Mode) (d : Debugger) :
    List FrameChange → Option Nat → Debugger → Prop where
  | none : Trails mode d [] (d.initialTarget mode) d
  | one {e : Debugger} {cs : List FrameChange} {target : Option Nat} {c : Computer}
      (before : Trails mode d cs target e) (ok : e.computer.next = (c, .ok ()))
      (goes : { e with computer := c }.eventAfter? mode target = .none) :
      Trails mode d (cs ++ [{ e with computer := c }.frameChange])
        ({ e with computer := c }.targetAfter mode target) { e with computer := c }.trackFrames

/-- How a run of at most `max` instructions ends. -/
inductive Outcome (mode : Mode) (d : Debugger) (max : Nat) :
    Debugger → Except Fault Stop → Prop where
  | spent {cs : List FrameChange} {target : Option Nat} {e : Debugger}
      (trails : Trails mode d cs target e) (all : cs.length = max) :
      Outcome mode d max e (.ok { steps := max, event := .budgetExhausted })
  | fails {cs : List FrameChange} {target : Option Nat} {e : Debugger} {c : Computer} {f : Fault}
      (trails : Trails mode d cs target e) (within : cs.length < max)
      (fails : e.computer.next = (c, .error f)) :
      Outcome mode d max { e with computer := c } (.error f)
  | stops {cs : List FrameChange} {target : Option Nat} {e : Debugger} {c : Computer}
      {event : StopEvent} (trails : Trails mode d cs target e) (within : cs.length < max)
      (ok : e.computer.next = (c, .ok ()))
      (stops : { e with computer := c }.eventAfter? mode target = some event) :
      Outcome mode d max { e with computer := c }.trackFrames
        (.ok { steps := cs.length + 1, event })

theorem Trails.executes {mode : Mode} {target : Option Nat} (h : Trails mode d cs target e) :
    Executes d cs e := by
  induction h with
  | none => exact .none
  | one before ok goes ih => exact .one ih ok

variable {ω : Type} (see : ω → Event → ω)

theorem runOn_outcome {mode : Mode} {target : Option Nat} (h : Trails mode d cs target e)
    (budget : Nat) (w : ω) :
    Outcome mode d (cs.length + budget) (runOn see mode budget cs.length target e w).1
      (runOn see mode budget cs.length target e w).2.2 := by
  -- on the budget; what was carried out before it counts as well
  induction budget generalizing e cs target w with
  | zero => exact .spent h rfl
  | succ budget ih =>
    obtain ⟨computer, result⟩ := e.computer.step_eq_next see w
    simp only [runOn]
    generalize e.computer.step see w = t at computer result ⊢
    obtain ⟨c, w, r⟩ := t
    have next : e.computer.next = (c, r) := (Prod.ext computer result).symm
    cases r with
    | error f => exact .fails h (by omega) next
    | ok _ =>
      simp only
      split
      · next event stops => exact .stops h (by omega) next stops
      · next goes =>
        have later := ih (.one h next goes) w
        rw [List.length_append, List.length_singleton, Nat.add_assoc, Nat.add_comm 1] at later
        exact later

/-- A run is an execution that was not stopped before its end. -/
theorem run_outcome (mode : Mode) (max : Nat) (d : Debugger) (w : ω) :
    Outcome mode d max (d.run see mode max w).1 (d.run see mode max w).2.2 := by
  have start : Trails mode d [] (d.initialTarget mode) d := .none
  have outcome := runOn_outcome see start max w
  rw [List.length_nil, Nat.zero_add] at outcome
  exact outcome

/-- A run that comes back with a stop has carried out as many instructions as it says. -/
theorem Outcome.executes {mode : Mode} {max : Nat} {stop : Stop}
    (h : Outcome mode d max e (.ok stop)) : ∃ cs, Executes d cs e ∧ cs.length = stop.steps := by
  cases h with
  | @spent cs target _ trails all => exact ⟨cs, trails.executes, all⟩
  | stops trails within ok stops => exact ⟨_, .one trails.executes ok, List.length_append⟩

theorem Outcome.failed {mode : Mode} {max : Nat} (h : Outcome mode d max e (.error f)) :
    ∃ cs e' c, Executes d cs e' ∧ e'.computer.next = (c, .error f) ∧
      e = { e' with computer := c } := by
  cases h with
  | @fails cs target e' c _ trails within fails => exact ⟨cs, e', c, trails.executes, fails, rfl⟩

theorem run_one (mode : Mode) (ok : d.computer.next = (c, .ok ())) (w : ω) :
    (d.run see mode 1 w).1 = { d with computer := c }.trackFrames ∧
      (d.run see mode 1 w).2.2.map Stop.steps = .ok 1 := by
  obtain ⟨computer, result⟩ := d.computer.step_eq_next see w
  rw [ok] at computer result
  simp only [run, runOn]
  generalize d.computer.step see w = t at computer result ⊢
  obtain ⟨c', w', r⟩ := t
  cases computer
  cases result
  simp only
  split <;> exact ⟨rfl, rfl⟩

/-! ## Operations -/

/-- What a host asks of a debugger. -/
inductive Operation where
  | run (mode : Mode) (budget : Nat)
  | setBreakpoint (a : UInt16)
  | setBreakpointAt (label : String)
  | clearBreakpoint (a : UInt16)
  | clearBreakpoints
  | restart
  deriving DecidableEq, Repr

/-- The debugger and its watcher after an operation, and how many instructions were carried out, or
the error that came back. -/
def perform (d : Debugger) (w : ω) : Operation → Debugger × ω × Except Fault Nat
  | .run mode budget =>
    let t := d.run see mode budget w
    (t.1, t.2.1, t.2.2.map Stop.steps)
  | .setBreakpoint a => ((d.setBreakpoint a).1, w, .ok 0)
  | .setBreakpointAt label => ((d.setBreakpointAt label).1, w, .ok 0)
  | .clearBreakpoint a => ((d.clearBreakpoint a).1, w, .ok 0)
  | .clearBreakpoints => (d.clearBreakpoints, w, .ok 0)
  | .restart => (d.restart.1, w, d.restart.2.map fun _ => 0)

/-- The debugger and its watcher after a list of operations, whatever came back, with the number of
all instructions, or the first error. -/
def performAll (d : Debugger) (w : ω) : List Operation → Debugger × ω × Except Fault Nat
  | [] => (d, w, .ok 0)
  | op :: ops =>
    let t := d.perform see w op
    let u := performAll t.1 t.2.1 ops
    (u.1, u.2.1, do return (← t.2.2) + (← u.2.2))

/-- Every operation but a restart is an execution, and an edit of the breakpoints. -/
theorem perform_executes (w : ω) {op : Operation} (goes : op ≠ .restart) {n : Nat}
    (ok : (d.perform see w op).2.2 = .ok n) :
    ∃ cs e, Executes d cs e ∧ cs.length = n ∧
      (d.perform see w op).1 = { e with breakpoints := (d.perform see w op).1.breakpoints } := by
  cases op with
  | run mode budget =>
    have outcome := run_outcome see mode budget d w
    simp only [perform] at ok ⊢
    generalize d.run see mode budget w = t at outcome ok ⊢
    obtain ⟨e, w, r⟩ := t
    cases r with
    | error f => cases ok
    | ok stop =>
      cases ok
      obtain ⟨cs, executes, length⟩ := outcome.executes
      exact ⟨cs, e, executes, length, rfl⟩
  | setBreakpoint a =>
    cases ok
    exact ⟨[], d, .none, rfl, rfl⟩
  | setBreakpointAt label =>
    cases ok
    refine ⟨[], d, .none, rfl, ?_⟩
    simp only [perform, setBreakpointAt]
    split <;> rfl
  | clearBreakpoint a =>
    cases ok
    exact ⟨[], d, .none, rfl, rfl⟩
  | clearBreakpoints =>
    cases ok
    exact ⟨[], d, .none, rfl, rfl⟩
  | restart => exact absurd rfl goes

theorem performAll_executes {ops : List Operation} (goes : .restart ∉ ops) (w : ω) {n : Nat}
    (ok : (d.performAll see w ops).2.2 = .ok n) :
    ∃ cs e, Executes d cs e ∧ cs.length = n ∧
      (d.performAll see w ops).1 =
        { e with breakpoints := (d.performAll see w ops).1.breakpoints } := by
  induction ops generalizing d w n with
  | nil =>
    cases ok
    exact ⟨[], d, .none, rfl, rfl⟩
  | cons op ops ih =>
    obtain ⟨now, later⟩ := not_or.1 (mt List.mem_cons.2 goes)
    simp only [performAll] at ok ⊢
    cases first : (d.perform see w op).2.2 with
    | error f =>
      rw [first] at ok
      cases ok
    | ok a =>
      cases rest : ((d.perform see w op).1.performAll see (d.perform see w op).2.1 ops).2.2 with
      | error f =>
        rw [first, rest] at ok
        cases ok
      | ok b =>
        rw [first, rest] at ok
        cases ok
        obtain ⟨cs, e, executes, length, reached⟩ := perform_executes see w (Ne.symm now) first
        obtain ⟨cs', e', executes', length', reached'⟩ := ih later _ rest
        rw [reached] at executes'
        refine ⟨cs ++ cs', { e' with breakpoints := e.breakpoints },
          executes.append (executes'.withBreakpoints e.breakpoints), ?_, ?_⟩
        · rw [List.length_append, length, length']
        · rw [reached']

end Debugger

end Micro8080
