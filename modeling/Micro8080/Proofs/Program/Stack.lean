import Micro8080.Proofs.Program.State

/-! # The stack as a list

Pushes and calls leave a word below the stack pointer, pops and returns take one away.  Seen from
the pointer at which a run began, the words that are left make up a list: `Stacks` says that the
live cells hold what the pending pushes and calls, innermost first, have put there.

The pointer wraps at 65536 and memory repeats every 2048 addresses, so that 1024 words are as many
as there is room for (`Ram.below_cell_ne`).  A push has the high byte of its word at the higher
address and a call the low byte of its return address (`openedBytes`).  Pops and returns read each
their own order back.
-/

namespace Micro8080

namespace Ram

theorem read_write_of_ne (r : Ram) {a b : UInt16} (v : UInt8)
    (other : a.toNat % 2048 ≠ b.toNat % 2048) : read (write r a v) b = read r b := by
  rw [read_write, if_neg other]

/-- Within one pass over memory, different distances below an address are different cells. -/
theorem below_cell_ne (base : UInt16) {i j : Nat} (lt : i < j) (near : j < i + 2048) :
    (base - .ofNat j).toNat % 2048 ≠ (base - .ofNat i).toNat % 2048 := by
  have := base.toNat_lt
  simp only [UInt16.toNat_sub, UInt16.toNat_ofNat']
  omega

end Ram

namespace ProgramState

variable (s : ProgramState)

/-- The instruction at the program counter is a call that the program carries out itself. -/
def calls : Bool :=
  match s.instruction with
  | .call k => s.operandWord != Microcode.systemVector && s.meets k
  | _ => false

/-- The instruction at the program counter is a return that is taken. -/
def returns : Bool :=
  match s.instruction with
  | .ret k => s.meets k
  | _ => false

/-- The two bytes that a stack instruction names, as a word. -/
def stackWord : StackPair → UInt16
  | .bc => s.bc
  | .de => s.de
  | .hl => s.hl
  | .psw => Word.ofBytes s.acc s.flags.toByte

/-- The instruction at the program counter leaves a word on the stack. -/
def Opens : Prop := (∃ p, s.instruction = .push p) ∨ s.calls = true

/-- The bytes of that word, the one at the higher address first. -/
def openedBytes : UInt8 × UInt8 :=
  match s.instruction with
  | .push p => (Word.high (s.stackWord p), Word.low (s.stackWord p))
  | _ => (Word.low (s.pc + 3), Word.high (s.pc + 3))

/-- The instruction at the program counter of `t` takes the word away that `s` has left: a pop
that of a push, a return that of a call. -/
def Closes (t s : ProgramState) : Prop :=
  (∃ p q, t.instruction = .pop p ∧ s.instruction = .push q) ∨
    (t.returns = true ∧ s.calls = true)

variable {s} {t u : ProgramState}

theorem calls_iff :
    s.calls = true ↔
      ∃ k, s.instruction = .call k ∧ s.operandWord ≠ Microcode.systemVector ∧
        s.meets k = true := by
  cases at_pc : s.instruction <;> simp [calls, at_pc]

theorem returns_iff : s.returns = true ↔ ∃ k, s.instruction = .ret k ∧ s.meets k = true := by
  cases at_pc : s.instruction <;> simp [returns, at_pc]

/-! ## What the four kinds of instruction do -/

theorem push_eq (p : StackPair) :
    s.push p = s.pushBytes (Word.high (s.stackWord p)) (Word.low (s.stackWord p)) := by
  cases p <;> simp [push, stackWord, bc, de, hl]

theorem execute_of_calls (h : s.calls = true) :
    s.execute s.instruction =
      { s.pushBytes (Word.low (s.pc + 3)) (Word.high (s.pc + 3)) with pc := s.operandWord } := by
  obtain ⟨k, at_pc, own, taken⟩ := calls_iff.1 h
  rw [at_pc, execute, call, if_pos ⟨own, taken⟩]

theorem execute_of_returns (h : s.returns = true) :
    s.execute s.instruction =
      { s with pc := Word.ofBytes (s.read s.sp) (s.read (s.sp + 1)), sp := s.sp + 2 } := by
  obtain ⟨k, at_pc, taken⟩ := returns_iff.1 h
  rw [at_pc, execute, ret, if_pos taken]

theorem execute_of_opens (h : s.Opens) :
    (s.execute s.instruction).sp = s.sp - 2 ∧
      (s.execute s.instruction).memory =
        Ram.write (Ram.write s.memory (s.sp - 1) s.openedBytes.1) (s.sp - 2) s.openedBytes.2 := by
  rcases h with ⟨p, at_pc⟩ | calls
  · rw [openedBytes, at_pc, execute, push_eq]
    exact ⟨rfl, rfl⟩
  · obtain ⟨k, at_pc, -⟩ := calls_iff.1 calls
    rw [execute_of_calls calls, openedBytes, at_pc]
    exact ⟨rfl, rfl⟩

theorem execute_of_closes (h : t.Closes s) :
    (t.execute t.instruction).sp = t.sp + 2 ∧ (t.execute t.instruction).memory = t.memory := by
  rcases h with ⟨p, q, at_pc, -⟩ | ⟨returns, -⟩
  · rw [at_pc, execute]
    cases p <;> exact ⟨rfl, rfl⟩
  · rw [execute_of_returns returns]
    exact ⟨rfl, rfl⟩

end ProgramState

open ProgramState

/-! ## Pending words -/

/-- Memory holds the words of pending pushes and calls, from the outermost at `base` down to the
first of the list. -/
def Ram.Holds (base : UInt16) (r : Ram) : List ProgramState → Prop
  | [] => True
  | s :: pending =>
    r.read (base - .ofNat (2 * pending.length + 1)) = s.openedBytes.1 ∧
      r.read (base - .ofNat (2 * pending.length + 2)) = s.openedBytes.2 ∧
      Holds base r pending

theorem Ram.Holds.of_live {base : UInt16} {r q : Ram} {pending : List ProgramState}
    (h : r.Holds base pending)
    (live : ∀ i, 0 < i → i ≤ 2 * pending.length →
      q.read (base - .ofNat i) = r.read (base - .ofNat i)) : q.Holds base pending := by
  induction pending with
  | nil => trivial
  | cons s pending ih =>
    obtain ⟨first, second, rest⟩ := h
    rw [List.length_cons] at live
    refine ⟨(live _ (by omega) (by omega)).trans first, (live _ (by omega) (by omega)).trans second,
      ih rest ?_⟩
    intro i pos le
    exact live i pos (by omega)

/-- The stack of `t` holds the words of the pending pushes and calls, and nothing else since the
pointer was `base`. -/
structure Stacks (base : UInt16) (t : ProgramState) (pending : List ProgramState) : Prop where
  pointer : t.sp = base - .ofNat (2 * pending.length)
  room : pending.length ≤ 1024
  holds : t.memory.Holds base pending

namespace Stacks

variable {base : UInt16} {s t u : ProgramState} {pending : List ProgramState}

theorem pointer_sub (h : Stacks base t pending) (i : Nat) :
    t.sp - .ofNat i = base - .ofNat (2 * pending.length + i) := by
  rw [h.pointer, UInt16.ofNat_add]
  grind

/-- A push or a call puts its word below all that is live. -/
theorem opened (h : Stacks base s pending) (opens : s.Opens) (room : pending.length < 1024) :
    Stacks base (s.execute s.instruction) (s :: pending) := by
  obtain ⟨sp, memory⟩ := execute_of_opens opens
  have high : s.sp - 1 = base - .ofNat (2 * pending.length + 1) := h.pointer_sub 1
  have low : s.sp - 2 = base - .ofNat (2 * pending.length + 2) := h.pointer_sub 2
  refine ⟨sp.trans low, room, ?_⟩
  rw [memory, high, low]
  refine ⟨?_, ?_, h.holds.of_live ?_⟩
  · rw [Ram.read_write_of_ne _ _ (Ram.below_cell_ne base (by omega) (by omega)), Ram.read_write,
      if_pos rfl]
  · rw [Ram.read_write, if_pos rfl]
  · -- with room for one more word, memory has not come round to the first live cell yet
    intro i pos le
    rw [Ram.read_write_of_ne _ _ (Ram.below_cell_ne base (by omega) (by omega)),
      Ram.read_write_of_ne _ _ (Ram.below_cell_ne base (by omega) (by omega))]

theorem top (h : Stacks base t (s :: pending)) :
    t.read (t.sp + 1) = s.openedBytes.1 ∧ t.read t.sp = s.openedBytes.2 := by
  obtain ⟨first, second, -⟩ := h.holds
  have low : t.sp = base - .ofNat (2 * pending.length + 2) := h.pointer
  have high : t.sp + 1 = base - .ofNat (2 * pending.length + 1) := by
    rw [low, UInt16.ofNat_add, UInt16.ofNat_add]
    grind
  rw [high, low]
  exact ⟨first, second⟩

/-- A pop or a return takes the innermost word away. -/
theorem closed (h : Stacks base t (s :: pending)) (closes : t.Closes s) :
    Stacks base (t.execute t.instruction) pending := by
  obtain ⟨sp, memory⟩ := execute_of_closes closes
  refine ⟨?_, Nat.le_of_succ_le h.room, by rw [memory]; exact h.holds.2.2⟩
  have low : t.sp = base - .ofNat (2 * pending.length + 2) := h.pointer
  rw [sp, low, UInt16.ofNat_add]
  grind

/-- Other instructions may do what they want with the cells that are not live. -/
theorem kept (h : Stacks base t pending) (sp : u.sp = t.sp)
    (live : ∀ i, 0 < i → i ≤ 2 * pending.length →
      u.read (base - .ofNat i) = t.read (base - .ofNat i)) : Stacks base u pending :=
  ⟨sp.trans h.pointer, h.room, h.holds.of_live live⟩

/-! ## What comes back -/

theorem popped (h : Stacks base t (s :: pending)) {q : StackPair} (pushed : s.instruction = .push q)
    {p : StackPair} (own : p ≠ .psw) : (t.pop p).stackWord p = s.stackWord q := by
  obtain ⟨high, low⟩ := h.top
  rw [openedBytes, pushed] at high low
  cases p with
  | psw => exact absurd rfl own
  | _ => simp [pop, stackWord, bc, de, hl, high, low]

theorem popped_psw (h : Stacks base t (s :: pending)) (pushed : s.instruction = .push .psw) :
    (t.pop .psw).acc = s.acc ∧ (t.pop .psw).flags = s.flags := by
  obtain ⟨high, low⟩ := h.top
  rw [openedBytes, pushed] at high low
  simp [pop, high, low, stackWord, Flags.ofByte_toByte]

theorem returned (h : Stacks base t (s :: pending)) (calls : s.calls = true) :
    Word.ofBytes (t.read t.sp) (t.read (t.sp + 1)) = s.pc + 3 := by
  obtain ⟨k, at_pc, -⟩ := calls_iff.1 calls
  obtain ⟨high, low⟩ := h.top
  rw [openedBytes, at_pc] at high low
  rw [high, low, Word.ofBytes_high_low]

end Stacks

theorem ProgramState.top_of_calls {s : ProgramState} (calls : s.calls = true) :
    let t := s.execute s.instruction
    t.sp = s.sp - 2 ∧ Word.ofBytes (t.read t.sp) (t.read (t.sp + 1)) = s.pc + 3 := by
  have empty : Stacks s.sp s [] := ⟨(UInt16.sub_zero _).symm, Nat.zero_le _, trivial⟩
  have on_top := empty.opened (.inr calls) (by decide)
  exact ⟨on_top.pointer, on_top.returned calls⟩

theorem ProgramState.pc_of_returns {s t : ProgramState} (calls : s.calls = true)
    (called : s.execute s.instruction = t) (returns : t.returns = true) :
    (t.execute t.instruction).pc = s.pc + 3 := by
  subst called
  rw [execute_of_returns returns]
  exact (top_of_calls calls).2

end Micro8080
