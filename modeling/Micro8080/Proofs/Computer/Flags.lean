import Micro8080.CommandLine.Report
import Micro8080.Proofs.Computer.Boundary
import Micro8080.Proofs.Program.Ending

/-! # The flag register between two instructions

The flags of an operation are written on the falling edge after it.  For most instructions that
edge is one of their own, but some operate in their last word (`Instruction.flagsPending`), and then
the edge is the first one of the next instruction.  So after a step the flag register shows either
what the instruction made of the flags, or what they were before it
(`Machine.Ready.instruct_flags`).  Branches do not notice, since they look at the flags at stage 3.

The key is that the flag register is one word behind the datapath, which has the flags of an
operation at once (`Machine.Performs.flags_eq`).  What is left is to tell which words of an
instruction write flags.
-/

namespace Micro8080

open ControlWord (idle transfer)
open Microcode

/-- The word has an effect on the flags. -/
def ControlWord.writesFlags (w : ControlWord) : Bool := w.execute || w.loadFlags

/-- The last word of the instruction operates, so that its flags are not written yet when it is
over. -/
def Instruction.flagsPending : Instruction → Bool
  | .operateMemory _ | .operateRegister .. | .operateImmediate _ | .operateAccumulator _ => true
  | .stepRegister t _ => t == .a
  | _ => false

/-! ## Words that write flags -/

namespace Microcode

@[simp] theorem writesFlags_transfer (s : BusSource) (t : BusTarget) (h : t ≠ .flags) :
    (transfer s t).writesFlags = false := by
  cases t <;> first | exact absurd rfl h | (cases s <;> rfl)

@[simp] theorem writesFlags_counting (s : Selector) (k : Count) :
    (idle.counting s k).writesFlags = false := rfl

@[simp] theorem writesFlags_restoring (w : ControlWord) :
    w.restoring.writesFlags = w.writesFlags := rfl

@[simp] theorem target_ne_flags (t : Register) : target t ≠ .flags := by
  cases t <;> simp [target, Register.selector?]

theorem writesFlags_of_pending {i : Instruction} (pending : i.flagsPending = true) (p : Probe) :
    ∀ w ∈ (ownWords i p).dropLast, w.writesFlags = false := by
  cases i
  case stepRegister t decrement =>
    cases t
    case a => simp [ownWords, shortcut, program, Register.selector?]
    all_goals cases pending
  case operateRegister op r => simp [ownWords, shortcut, program]
  case operateMemory op => simp [ownWords, shortcut, program, addressFrom]
  case operateImmediate op => simp [ownWords, shortcut, program, addressFrom]
  case operateAccumulator op => simp [ownWords, shortcut, program]
  all_goals cases pending

theorem writesFlags_of_settled {i : Instruction} (settled : i.flagsPending = false)
    {w : ControlWord} (last : (program i).getLast? = some w) : w.writesFlags = false := by
  cases i
  case stepRegister t decrement =>
    cases t
    case a => cases settled
    all_goals
      simp only [program, Register.selector?, List.getLast?_cons_cons, List.getLast?_singleton,
        Option.some.injEq] at last
      simp [← last]
  case direct load => cases load <;> simp [program, fetchWord] at last <;> simp [← last]
  case indirect p load => cases load <;> simp [program] at last <;> simp [← last]
  case halt => cases last; rfl
  case unimplemented opcode => cases last; rfl
  case output => cases last; rfl
  case operateMemory op => cases settled
  case operateRegister op r => cases settled
  case operateImmediate op => cases settled
  case operateAccumulator op => cases settled
  all_goals
    simp [program, fetchWord, pushByte, popByte] at last
    simp [← last, advance]

theorem writesFlags_of_last {i : Instruction} (settled : i.flagsPending = false) {p : Probe}
    {w : ControlWord} (last : (ownWords i p).getLast? = some w) : w.writesFlags = false := by
  simp only [ownWords] at last
  split at last
  · next d short =>
    cases last
    rcases (shortcut_word short).2.2 with e | e <;> rw [e] <;> rfl
  · exact writesFlags_of_settled settled last

end Microcode

/-! ## The flag register against the datapath -/

namespace Datapath

theorem obey_flags (d : Datapath) {w : ControlWord} (still : w.writesFlags = false) :
    (d.obey w).flags = d.flags := by
  obtain ⟨operates, loads⟩ : w.execute = false ∧ w.loadFlags = false := by
    simpa [ControlWord.writesFlags] using still
  have fall (a : Alu) : a.fall w (d.bus w) = .ok a := by
    simp only [Alu.fall, operates, loads, Bool.false_eq_true, if_false]
  have rise : (d.alu.rise w (d.bus w)).1.flags = d.flags := by
    simp only [Alu.rise, Alu.operate, operates, Bool.false_eq_true, if_false]
    split
    · rfl
    · cases w.loadAcc <;> cases w.restoreAcc <;> rfl
  simp only [obey, operated, fall]
  exact rise

theorem run_flags {d : Datapath} {ws : List ControlWord}
    (still : ∀ w ∈ ws, w.writesFlags = false) : (d.run ws).flags = d.flags := by
  induction ws generalizing d with
  | nil => rfl
  | cons w ws ih =>
    rw [run_cons, ih fun v mem => still v (List.mem_cons_of_mem _ mem),
      d.obey_flags (still w List.mem_cons_self)]

end Datapath

namespace Machine

variable {m n : Machine} {d : Decision} {ds : List Decision}

/-- The falling edge of a period writes the flags that were pending, and they stay. -/
theorem Live.flags_eq (live : m.Live)
    (decide : m.sequencer.fall.decision m.opcode m.probe = .ok d)
    (supported : d.word.adjusts = false) :
    m.halfTick.machine.alu.flags = m.committedFlags ∧
      m.pair.machine.alu.flags = m.committedFlags := by
  obtain ⟨alu, driven, fall, drive, ok, tocked⟩ := live.tock decide
  obtain ⟨-, line, moment⟩ := live.tocked tocked
  have fine := (live.tick decide supported fall drive tocked).1
  have ticks := fault_phaseMoment line fine
  rw [moment] at ticks
  have written : m.halfTick.machine.alu.flags = m.committedFlags := by
    rw [tocked, committedFlags_eq fall]
    rfl
  refine ⟨written, ?_⟩
  rw [pair, Moment.machine_andThen_of_ok ok, ← written, halfTick_of_phase line fine, moment]
  exact (latches_tick ticks).alu.flags

theorem Performs.flags_eq (h : Performs m ds n) :
    n.alu.flags = (m.datapath.run (ds.map Decision.word).dropLast).flags := by
  -- on the run, whose first word is not its last one unless it is its only one
  induction h with
  | last live decide supported last => exact (live.flags_eq decide supported).2
  | @more m n d ds live decide supported more rest ih =>
    have long : ds.map Decision.word ≠ [] := by
      intro none
      rw [List.map_eq_nil_iff.1 none] at rest
      cases rest
    rw [ih, (live.obeyed decide supported).2.datapath, List.map_cons,
      List.dropLast_cons_of_ne_nil long, Datapath.run_cons]

/-- After a step the flag register shows the flags that the instruction produced, or, if they are
pending, the flags from before it. -/
theorem Ready.instruct_flags (h : m.Ready)
    (named : m.programState.instruction.operation? ≠ some .daa) :
    m.instruct.machine.alu.flags =
      if m.programState.instruction.flagsPending then m.programState.flags
      else (m.programState.execute m.programState.instruction).flags := by
  obtain ⟨es, performs, own⟩ := h.instruct_performs named
  have cleared : (m.marked false).Ready := h.clearSkippedCall
  obtain ⟨-, -, -, -, -, -, fetched, -⟩ := cleared.fetches
  have before : (m.marked false).fetched.datapath.flags = m.programState.flags := by
    rw [fetched, Datapath.run_fetch]
    rfl
  have shown := performs.flags_eq
  have after := congrArg (fun d => d.flags) performs.datapath_eq
  rw [own] at shown after
  split
  · next pending => rw [shown, Datapath.run_flags (writesFlags_of_pending pending _), before]
  · next settled =>
    have nonempty : ownWords m.programState.instruction m.programState.probe ≠ [] := by
      rw [← own, ne_eq, List.map_eq_nil_iff]
      rintro rfl
      cases performs
    have last := List.dropLast_concat_getLast nonempty
    have still := writesFlags_of_last (Bool.eq_false_iff.2 settled)
      (List.getLast?_eq_some_getLast nonempty)
    rw [← last, Datapath.run_append, Datapath.run_cons, Datapath.run_nil,
      Datapath.obey_flags _ still, ← shown] at after
    rw [← after, ← (h.instruct named).2.2.1]
    rfl

theorem Ready.halfTick_flags (h : m.Ready) :
    m.halfTick.fault = none ∧ m.halfTick.machine.alu.flags = m.programState.flags := by
  have first : m.sequencer.fall.stage = 0 := by simp [Sequencer.fall, h.atLast]
  obtain ⟨d, decide, -, -, supported, -⟩ := h.toLive.fetches first (by decide)
  obtain ⟨-, -, -, -, ok, -⟩ := h.toLive.tock decide
  exact ⟨ok, (h.toLive.flags_eq decide supported).1⟩

end Machine

/-! ## What is shown between two steps -/

/-- The line of registers begins with the accumulator and the flag register. -/
theorem CommandLine.registerLine_eq (m : Machine) :
    ∃ rest, registerLine m =
      "A=" ++ Numeral.hexCapital 2 m.alu.acc.toNat ++
        " F=" ++ Numeral.hexCapital 2 m.alu.flags.toByte.toNat ++ " B=" ++ rest := by
  have acc : "A=" = "A" ++ "=" := rfl
  have flags : " F=" = " " ++ ("F" ++ "=") := rfl
  have next : " B=" = " " ++ ("B" ++ "=") := rfl
  rw [acc, flags, next]
  simp only [registerLine, List.map_cons, List.map_nil, List.cons_append, List.nil_append,
    String.intercalate_cons_cons, String.append_assoc]
  exact ⟨_, rfl⟩

namespace Computer

variable {ω : Type} {see : ω → Event → ω} {c c' : Computer} {w w' : ω}

/-- After a step the instruction at the program counter has produced flags, and a branch that comes
next looks at these.  The flag register, and with it the line of registers, shows them unless they
are pending.  Then it shows the flags from before the instruction until the next half-tick. -/
theorem Boundary.flags_of_step (h : Boundary see c w) (ok : c.step see w = (c', w', .ok ())) :
    let s := c.machine.programState
    let produced := (s.execute s.instruction).flags
    let shown := if s.instruction.flagsPending then s.flags else produced
    c'.machine.Observes produced ∧
    c'.machine.alu.flags = shown ∧
    (∃ rest, CommandLine.registerLine c'.machine =
      "A=" ++ Numeral.hexCapital 2 c'.machine.alu.acc.toNat ++
        " F=" ++ Numeral.hexCapital 2 shown.toByte.toNat ++ " B=" ++ rest) ∧
    (c'.halfTick see w').2.2 = .ok () ∧
    (c'.halfTick see w').1.machine.alu.flags = produced := by
  intro s produced shown
  have after : Boundary see c' w' := .step h ok
  have meaning : c'.machine.programState.flags = produced :=
    congrArg ProgramState.flags (h.execute_of_step ok)
  have machine : c'.machine = c.machine.instruct.machine := by rw [← machine_step see c w, ok]
  have shows : c'.machine.alu.flags = shown := by
    rw [machine]
    exact h.ready.instruct_flags (operation_of_step h.ready ok)
  obtain ⟨fine, written⟩ := after.ready.halfTick_flags
  refine ⟨meaning ▸ after.ready.observes, shows, ?_, ?_, written.trans meaning⟩
  · rw [← shows]
    exact CommandLine.registerLine_eq c'.machine
  · rw [result_halfTick, Moment.result, fine]

/-- The carry that is set by the first instruction. -/
theorem flags_of_step_carry :
    let see : Unit → Event → Unit := fun _ _ => ()
    ∃ c', (((new {}).reset #[0x37]).1.step see ()) = (c', (), .ok ()) ∧
      c'.machine.alu.flags = {} ∧
      (c'.halfTick see ()).1.machine.alu.flags = { carry := true } := by
  intro see
  have boundary : Boundary see ((new {}).reset #[0x37]).1 () := .reset (new {}) #[0x37] ()
  have at_pc : ((new {}).reset #[0x37]).1.machine.programState.instruction =
      .operateAccumulator .stc := instruction_reset (new {}) (by decide)
  obtain ⟨c', w', step, -⟩ := boundary.steps_of_eq at_pc (by simp [Instruction.operation?])
  have flags := (cleared_reset (new {}) #[0x37]).2
  obtain ⟨-, shown, -, -, written⟩ := boundary.flags_of_step step
  rw [at_pc] at shown written
  refine ⟨c', step, shown.trans flags, written.trans ?_⟩
  show { ((new {}).reset #[0x37]).1.machine.programState.flags with carry := true } = _
  rw [flags]

/-- A decrement from zero to 255 sets the flags of parity and sign, but the flag register does not
show them yet. -/
theorem flags_late_after_decrement :
    let see : Unit → Event → Unit := fun _ _ => ()
    let c := ((new {}).reset #[0x3D]).1
    ∃ c', Boundary see c () ∧ c.step see () = (c', (), .ok ()) ∧
      c'.machine.Observes { parity := true, sign := true } ∧ c'.machine.alu.flags = {} := by
  intro see c
  have boundary : Boundary see c () := .reset (new {}) #[0x3D] ()
  have at_pc : c.machine.programState.instruction = .stepRegister .a true :=
    instruction_reset (new {}) (by decide)
  obtain ⟨c', w', step, -, observes⟩ :=
    boundary.steps_of_eq at_pc (by simp [Instruction.operation?])
  obtain ⟨acc, flags⟩ := cleared_reset (new {}) #[0x3D]
  refine ⟨c', boundary, step, ?_, ?_⟩
  · have produced : (c.machine.programState.execute (.stepRegister .a true)).flags =
        Flags.ofResult (c.machine.programState.acc - 1) c.machine.programState.flags.carry := rfl
    rw [produced, acc, flags] at observes
    exact observes
  · have machine : c'.machine = c.machine.instruct.machine := by rw [← machine_step see c (), step]
    have pending := boundary.ready.instruct_flags (operation_of_step boundary.ready step)
    rw [at_pc] at pending
    rw [machine]
    exact pending.trans flags

end Computer

end Micro8080
