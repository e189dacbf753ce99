import Micro8080.Proofs.Computer.Boundary
import Micro8080.Proofs.Program.Stack

/-! # Last in, first out

A program that only moves the stack pointer by pushes, pops, calls and returns, and matches them
like brackets, finds on the stack what it has put there, however deep the brackets are nested
(`Nested.last_in_first_out`).

The abstract stack is the list of the brackets that are still open.  A bracket is the state in which
its push or call began, so that the list says what was pushed and where a call came from.  The
induction is on the run, and carries `Stacks`: all words of the list are in their cells.
-/

namespace Micro8080.Computer

variable {ω : Type} {see : ω → Event → ω}

/-- Successful steps from a boundary at which the stack pointer was `base` have led here.  The list
holds the brackets that are open, innermost first. -/
inductive Nested (see : ω → Event → ω) (base : UInt16) :
    Computer → ω → List ProgramState → Prop where
  | start {c : Computer} {w : ω} (boundary : Boundary see c w)
      (pointer : c.machine.programState.sp = base) : Nested see base c w []
  | opens {c c' : Computer} {w w' : ω} {pending : List ProgramState}
      (before : Nested see base c w pending) (ok : c.step see w = (c', w', .ok ()))
      (opens : c.machine.programState.Opens) (room : pending.length < 1024) :
      Nested see base c' w' (c.machine.programState :: pending)
  | closes {c c' : Computer} {w w' : ω} {s : ProgramState} {pending : List ProgramState}
      (before : Nested see base c w (s :: pending)) (ok : c.step see w = (c', w', .ok ()))
      (closes : c.machine.programState.Closes s) : Nested see base c' w' pending
  /-- Any other instruction leaves the pointer and the live cells as they were. -/
  | other {c c' : Computer} {w w' : ω} {pending : List ProgramState}
      (before : Nested see base c w pending) (ok : c.step see w = (c', w', .ok ()))
      (pointer : c'.machine.programState.sp = c.machine.programState.sp)
      (live : ∀ i, 0 < i → i ≤ 2 * pending.length →
        c'.machine.programState.read (base - .ofNat i) =
          c.machine.programState.read (base - .ofNat i)) :
      Nested see base c' w' pending

variable {base : UInt16} {c : Computer} {w : ω} {pending : List ProgramState}

theorem Nested.boundary (h : Nested see base c w pending) : Boundary see c w := by
  induction h with
  | start boundary => exact boundary
  | opens before ok _ _ ih => exact .step ih ok
  | closes before ok _ ih => exact .step ih ok
  | other before ok _ _ ih => exact .step ih ok

theorem Nested.stacks (h : Nested see base c w pending) :
    Stacks base c.machine.programState pending := by
  induction h with
  | start boundary pointer =>
    refine ⟨?_, Nat.zero_le _, trivial⟩
    rw [pointer]
    exact (UInt16.sub_zero base).symm
  | opens before ok opens room ih =>
    rw [before.boundary.execute_of_step ok]
    exact ih.opened opens room
  | closes before ok closes ih =>
    rw [before.boundary.execute_of_step ok]
    exact ih.closed closes
  | other before ok pointer live ih => exact ih.kept pointer live

/-- The stack pointer is two below `base` for each open bracket.  A pop loads the word that its push
has stored, with the accumulator and all flags if both are of these, and a return goes on after its
call. -/
theorem Nested.last_in_first_out (h : Nested see base c w pending) :
    let t := c.machine.programState
    t.sp = base - .ofNat (2 * pending.length) ∧
    ∀ s rest, pending = s :: rest →
      (∀ p q, t.instruction = .pop p → s.instruction = .push q →
        ∃ t', StepsTo see c w t' ∧
          (p ≠ .psw → t'.stackWord p = s.stackWord q) ∧
          (p = .psw → q = .psw → t'.acc = s.acc ∧ t'.flags = s.flags)) ∧
      (t.returns = true → s.calls = true →
        ∃ t', StepsTo see c w t' ∧ t'.pc = s.pc + 3) := by
  intro t
  have held := h.stacks
  refine ⟨held.pointer, ?_⟩
  rintro s rest rfl
  refine ⟨?_, ?_⟩
  · intro p q popping pushed
    refine ⟨(t.pop p).past 1, h.boundary.steps_of_eq popping (by simp [Instruction.operation?]),
      ?_, ?_⟩
    · intro own
      exact held.popped pushed own
    · rintro rfl rfl
      exact held.popped_psw pushed
  · intro returns calls
    obtain ⟨k, at_pc, -⟩ := ProgramState.returns_iff.1 returns
    have steps := h.boundary.steps_of_eq at_pc (by simp [Instruction.operation?])
    rw [← at_pc, ProgramState.execute_of_returns returns] at steps
    exact ⟨_, steps, held.returned calls⟩

/-! ## A program with a subroutine -/

/-- A call of a subroutine at address 4, a halt to come back to, and the return that is the
subroutine. -/
def subroutine : Array UInt8 := #[0xCD, 0x04, 0x00, 0x76, 0xC9]

theorem subroutine_fits : subroutine.size ≤ 2048 := by decide

theorem calls_subroutine (c : Computer) :
    let s := (c.reset subroutine).1.machine.programState
    s.pc = 0 ∧ s.operandWord = 4 ∧ s.calls = true := by
  intro s
  have call : s.instruction = .call none := instruction_reset c subroutine_fits
  have operand : s.operandWord = 4 := operandWord_reset c subroutine_fits
  have pc : s.pc = 0 := Machine.pc_powerOn subroutine
  refine ⟨pc, operand, ProgramState.calls_iff.2 ⟨none, call, ?_, rfl⟩⟩
  rw [operand]
  decide

theorem returns_from_subroutine (c : Computer) :
    let s := (c.reset subroutine).1.machine.programState
    (s.execute s.instruction).returns = true := by
  intro s
  obtain ⟨-, operand, calls⟩ : s.pc = 0 ∧ s.operandWord = 4 ∧ s.calls = true :=
    calls_subroutine c
  have pointer : s.sp = 0 := by
    show (Machine.powerOn subroutine).1.registers.sp = 0
    simp only [Machine.powerOn_eq]
    split <;> simp [RegisterFile.sp, Word.ofBytes]
  have four : s.read 4 = 0xC9 := Machine.read_powerOn subroutine_fits 4
  clear_value s
  refine ProgramState.returns_iff.2 ⟨none, ?_, rfl⟩
  rw [ProgramState.execute_of_calls calls]
  simp only [ProgramState.instruction, ProgramState.read, ProgramState.pushBytes,
    ProgramState.write, operand, pointer]
  rw [Ram.read_write_of_ne _ _ (by decide), Ram.read_write_of_ne _ _ (by decide)]
  exact congrArg Instruction.decode four

theorem last_in_first_out_return :
    let see : Unit → Event → Unit := fun _ _ => ()
    let c := (((new {}).reset subroutine).1.step see ()).1
    ∃ t', StepsTo see c () t' ∧ t'.pc = 3 := by
  intro see c
  let start := ((new {}).reset subroutine).1
  obtain ⟨pc, -, calls⟩ := calls_subroutine (new {})
  obtain ⟨k, at_pc, -⟩ := ProgramState.calls_iff.1 calls
  have boundary : Boundary see start () := .reset (new {}) subroutine ()
  obtain ⟨c', w', ok, meaning, -⟩ := boundary.steps_of_eq at_pc (by simp [Instruction.operation?])
  have same : c = c' := congrArg Prod.fst ok
  have nested : Nested see _ c' () _ :=
    .opens (.start boundary rfl) ok (.inr calls) (Nat.zero_lt_succ _)
  have returns : c'.machine.programState.returns = true := by
    rw [meaning, ← at_pc]
    exact returns_from_subroutine (new {})
  obtain ⟨t', steps, back⟩ := (nested.last_in_first_out.2 _ _ rfl).2 returns calls
  rw [same]
  exact ⟨t', steps, back.trans (by rw [pc]; rfl)⟩

end Micro8080.Computer
