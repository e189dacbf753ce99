import Micro8080.Proofs.Debugger.Meaning

/-! # Hosts of a debugger

A host asks a debugger for runs, restarts and edits of its breakpoints.  What a single instruction
keeps is kept by all of them (`performAll_invariant`), and so the machine is always found between
two instructions, or stopped by a fault (`attends_performAll`).

A debugger also gives its computer out of hand.  A host that uses it may leave the machine in the
middle of an instruction, but never one that is not coherent (`accessAll_coherent`).
-/

namespace Micro8080.Debugger

variable {d : Debugger} {c : Computer}

/-! ## Operations -/

variable {ω : Type} (see : ω → Event → ω)

/-- What an instruction, a failure, an edit of the breakpoints and a restart keep holds after any
operations. -/
theorem performAll_invariant {P : Debugger → Prop}
    (instruction : ∀ d c, P d → d.computer.next = (c, .ok ()) →
      P { d with computer := c }.trackFrames)
    (failure : ∀ d c f, P d → d.computer.next = (c, .error f) → P { d with computer := c })
    (edit : ∀ d bs, P d → P { d with breakpoints := bs })
    (restart : ∀ d, P d → P d.restart.1) (start : P d) (w : ω) (ops : List Operation) :
    P (d.performAll see w ops).1 := by
  have executes {d e : Debugger} {cs : List FrameChange} (h : Executes d cs e) (start : P d) :
      P e := by
    induction h with
    | none => exact start
    | one before ok ih => exact instruction _ _ ih ok
  induction ops generalizing d w with
  | nil => exact start
  | cons op ops ih =>
    refine ih ?_ _
    cases op with
    | run mode budget =>
      have outcome := run_outcome see mode budget d w
      simp only [perform]
      generalize d.run see mode budget w = t at outcome ⊢
      obtain ⟨e, w, r⟩ := t
      cases r with
      | ok stop =>
        obtain ⟨cs, after, -⟩ := outcome.executes
        exact executes after start
      | error f =>
        obtain ⟨cs, e', c, before, fails, reached⟩ := outcome.failed
        rw [show e = _ from reached]
        exact failure e' c f (executes before start) fails
    | setBreakpoint a => exact edit d _ start
    | setBreakpointAt label =>
      simp only [perform, setBreakpointAt]
      split
      · exact edit d _ start
      · exact start
    | clearBreakpoint a => exact edit d _ start
    | clearBreakpoints => exact edit d [] start
    | restart => exact restart d start

/-- The machine is between two instructions, or a fault has stopped it. -/
structure Attends (d : Debugger) : Prop where
  coherent : d.computer.machine.Coherent
  rests : d.computer.machine.Ready ∨ ∃ f, d.computer.machine.fault = some f

theorem attends_of_reset (c : Computer) (image : Array UInt8)
    (fresh : d.computer = (c.reset image).1) : d.Attends := by
  refine ⟨?_, ?_⟩ <;> rw [fresh]
  · exact Machine.coherent_powerOn image
  · exact .inl (Machine.ready_powerOn image)

theorem Attends.instruction (h : d.Attends) (ok : d.computer.next = (c, .ok ())) :
    d.computer.machine.Ready ∧ { d with computer := c }.trackFrames.Attends := by
  have ready : d.computer.machine.Ready := by
    rcases h.rests with ready | ⟨f, latched⟩
    · exact ready
    · have fails := (Computer.next_of_latched latched).1
      rw [ok] at fails
      cases fails
  have coherent := Computer.coherent_of_next h.coherent ok
  have same := trackFrames_computer { d with computer := c }
  refine ⟨ready, ⟨by rw [same]; exact coherent, .inl ?_⟩⟩
  rw [same]
  exact (Computer.completed_of_next ready ok).ready

theorem Attends.failure {f : Fault} (h : d.Attends) (fails : d.computer.next = (c, .error f)) :
    { d with computer := c }.Attends ∧ ∃ g, c.machine.fault = some g := by
  have coherent := Computer.coherent_of_next h.coherent fails
  have latched : ∃ g, c.machine.fault = some g := by
    rcases h.rests with ready | ⟨g, latched⟩
    · exact ⟨f, (Computer.refused_of_next h.coherent ready fails).2.2⟩
    · have same := (Computer.next_of_latched latched).2
      rw [fails] at same
      exact ⟨g, by rw [same]; exact latched⟩
  exact ⟨⟨coherent, .inr latched⟩, latched⟩

theorem attends_restart (d : Debugger) : d.restart.1.Attends := by
  refine attends_of_reset d.computer d.program.image ?_
  rw [restart_eq]

/-- A host that leaves the computer to the debugger brings it to no other place. -/
theorem attends_performAll (start : d.Attends) (w : ω) (ops : List Operation) :
    (d.performAll see w ops).1.Attends :=
  performAll_invariant see (fun _ _ h ok => (h.instruction ok).2)
    (fun _ _ _ h fails => (h.failure fails).1) (fun _ _ h => ⟨h.coherent, h.rests⟩)
    (fun d _ => attends_restart d) start w ops

/-! ## Accesses -/

/-- What a host can do to a debugger, which gives its computer out of hand. -/
inductive Access where
  | operation (op : Operation)
  | computer (call : Computer.Call)
  deriving DecidableEq, Repr

def access (d : Debugger) (w : ω) : Access → Debugger × ω
  | .operation op => ((d.perform see w op).1, (d.perform see w op).2.1)
  | .computer call =>
    ({ d with computer := (d.computer.perform see w call).1 }, (d.computer.perform see w call).2.1)

/-- The debugger and its watcher after a list of accesses, whatever came back. -/
def accessAll (d : Debugger) (w : ω) : List Access → Debugger × ω
  | [] => (d, w)
  | a :: rest => accessAll (d.access see w a).1 (d.access see w a).2 rest

theorem access_coherent (h : d.computer.machine.Coherent) (w : ω) (a : Access) :
    (d.access see w a).1.computer.machine.Coherent := by
  cases a with
  | computer call => exact (Computer.perform_coherent see h call).1
  | operation op =>
    refine performAll_invariant see (P := fun d => d.computer.machine.Coherent) ?_ ?_
      (fun _ _ h => h) ?_ h w [op]
    · intro d c h ok
      rw [trackFrames_computer]
      exact Computer.coherent_of_next h ok
    · intro d c f h fails
      exact Computer.coherent_of_next h fails
    · intro d _
      exact (attends_restart d).coherent

theorem accessAll_coherent (h : d.computer.machine.Coherent) (w : ω) (accesses : List Access) :
    (d.accessAll see w accesses).1.computer.machine.Coherent := by
  induction accesses generalizing d w with
  | nil => exact h
  | cons a rest ih => exact ih (access_coherent see h w a) _

theorem accessAll_attends (h : d.Attends) (w : ω) {accesses : List Access}
    (own : ∀ a ∈ accesses, ∃ op, a = .operation op) : (d.accessAll see w accesses).1.Attends := by
  induction accesses generalizing d w with
  | nil => exact h
  | cons a rest ih =>
    obtain ⟨op, rfl⟩ := own a List.mem_cons_self
    have after : (d.access see w (.operation op)).1.Attends := attends_performAll see h w [op]
    exact ih after _ fun a mem => own a (List.mem_cons_of_mem _ mem)

end Micro8080.Debugger
