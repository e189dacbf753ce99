import Micro8080.Control.Sequencer

/-! # Lawful control words

The parts of the machine refuse a word that lets two drivers onto the bus, writes the accumulator
twice, or names what is not there.  A word is `Lawful` if no part refuses it.  Every word of every
microprogram is lawful (`program_lawful`).

Only one thing is left that can go wrong: the arithmetic unit has a code for the decimal adjustment
but cannot carry it out.  A word `adjusts` if it asks for that.
-/

namespace Micro8080

/-! ## Selectors that name something -/

namespace Selector

/-- The selectors of the twelve cells and of the six pairs. -/
def named : List Selector :=
  [b, c, d, e, h, l, w, z, pcHigh, pcLow, spHigh, spLow, bc, de, hl, wz, pc, sp]

theorem b_named : b ∈ named := by decide

theorem pc_named : pc ∈ named := by decide

theorem last_lt_of_named {s : Selector} (h : s ∈ named) : s.last < 12 := by
  have all : ∀ s ∈ named, s.last < 12 := by decide
  exact all s h

end Selector

theorem RegisterPair.selector_named (p : RegisterPair) : p.selector ∈ Selector.named := by
  cases p <;> decide

theorem RegisterPair.high_named (p : RegisterPair) : p.high ∈ Selector.named := by
  cases p <;> decide

theorem RegisterPair.low_named (p : RegisterPair) : p.low ∈ Selector.named := by
  cases p <;> decide

theorem RegisterPair.selector_pair (p : RegisterPair) : p.selector.pair = true := by
  cases p <;> rfl

def BusSource.Named : BusSource → Prop
  | .register s => s ∈ Selector.named
  | _ => True

def BusTarget.Named : BusTarget → Prop
  | .register s => s ∈ Selector.named
  | _ => True

namespace Microcode

theorem source_named (r : Register) : (source r).Named := by
  cases r <;> simp [source, Register.selector?, BusSource.Named] <;> decide

theorem target_named (r : Register) : (target r).Named := by
  cases r <;> simp [target, Register.selector?, BusTarget.Named] <;> decide

theorem pushHigh_named (p : StackPair) : (pushHigh p).Named := by
  cases p <;> simp [pushHigh, BusSource.Named] <;> decide

theorem pushLow_named (p : StackPair) : (pushLow p).Named := by
  cases p <;> simp [pushLow, BusSource.Named] <;> decide

theorem popHigh_named (p : StackPair) : (popHigh p).Named := by
  cases p <;> simp [popHigh, BusTarget.Named] <;> decide

theorem popLow_named (p : StackPair) : (popLow p).Named := by
  cases p <;> simp [popLow, BusTarget.Named] <;> decide

end Microcode

/-! ## Words -/

namespace ControlWord

/-- No two signals of the word contend for the bus, the accumulator, the memory or a register. -/
structure Exclusive (w : ControlWord) : Prop where
  drivers : w.drivers ≤ 1
  accWriters : w.accWriters ≤ 1
  memory : ¬ (w.loadAddress = true ∧ w.writeMemory = true)
  registers : ¬ (w.count ≠ .none ∧ w.loadRegister = true)

/-- No part of the machine refuses the word, unless it asks for the decimal adjustment. -/
structure Lawful (w : ControlWord) : Prop extends Exclusive w where
  read_named : w.read ∈ Selector.named
  write_named : w.write ∈ Selector.named
  count_pair : w.count ≠ .none → w.write.pair = true
  operation : w.execute = true → ∃ op : Operation, w.opCode = op.code

/-- The word asks for the decimal adjustment. -/
def adjusts (w : ControlWord) : Bool := w.execute && w.opCode == Operation.daa.code

/-- Nothing else writes the accumulator while the arithmetic unit executes. -/
theorem Exclusive.alone_of_execute {w : ControlWord} (h : w.Exclusive) (e : w.execute = true) :
    w.loadAcc = false ∧ w.restoreAcc = false := by
  have writers := h.accWriters
  simp only [ControlWord.accWriters, e, Bool.toNat_true] at writers
  cases load : w.loadAcc <;> cases restore : w.restoreAcc <;> simp_all

theorem lawful_idle : idle.Lawful := by
  refine ⟨⟨?_, ?_, ?_, ?_⟩, ?_, ?_, ?_, ?_⟩ <;> simp [idle] <;> decide

theorem lawful_transfer {s : BusSource} {t : BusTarget} (hs : s.Named) (ht : t.Named) :
    (transfer s t).Lawful := by
  have read : (transfer s t).read ∈ Selector.named := by
    cases s <;> cases t <;> first | exact hs | (simp [transfer, driving, loading, idle]; decide)
  have write : (transfer s t).write ∈ Selector.named := by
    cases s <;> cases t <;> first | exact ht | (simp [transfer, driving, loading, idle]; decide)
  refine ⟨⟨?_, ?_, ?_, ?_⟩, read, write, ?_, ?_⟩ <;> cases s <;> cases t <;>
    simp [transfer, driving, loading, idle, drivers, accWriters]

theorem lawful_counting {s : Selector} {k : Count} (hs : s ∈ Selector.named)
    (pair : s.pair = true) : (idle.counting s k).Lawful := by
  refine ⟨⟨?_, ?_, ?_, ?_⟩, Selector.b_named, hs, fun _ => pair, ?_⟩ <;>
    simp [counting, idle, drivers, accWriters]

theorem lawful_executing (op : Operation) : (idle.executing op).Lawful := by
  refine ⟨⟨?_, ?_, ?_, ?_⟩, Selector.b_named, Selector.b_named, ?_, fun _ => ⟨op, rfl⟩⟩ <;>
    simp [executing, idle, drivers, accWriters]

theorem Lawful.saving {w : ControlWord} (h : w.Lawful) : w.saving.Lawful :=
  ⟨⟨h.drivers, h.accWriters, h.memory, h.registers⟩, h.read_named, h.write_named, h.count_pair,
    h.operation⟩

theorem Lawful.restoring {w : ControlWord} (h : w.Lawful) (free : w.accWriters = 0) :
    w.restoring.Lawful := by
  refine ⟨⟨h.drivers, ?_, h.memory, h.registers⟩, h.read_named, h.write_named, h.count_pair,
    h.operation⟩
  simp only [accWriters] at free
  simp only [accWriters, ControlWord.restoring, Bool.toNat_true]
  omega

theorem lawful_halting : ({ idle with halt := true } : ControlWord).Lawful := by
  refine ⟨⟨?_, ?_, ?_, ?_⟩, by decide, by decide, ?_, ?_⟩ <;> simp [idle, drivers, accWriters]

end ControlWord

/-! ## Microprograms -/

namespace Microcode

open ControlWord

theorem lawful_addressFrom {s : Selector} (hs : s ∈ Selector.named) : (addressFrom s).Lawful :=
  lawful_transfer hs trivial

theorem lawful_advance : advance.Lawful := lawful_counting (by decide) rfl

theorem lawful_passOperand : passOperand.Lawful := lawful_counting (by decide) rfl

theorem lawful_advance_executing (op : Operation) : (advance.executing op).Lawful := by
  refine ⟨⟨?_, ?_, ?_, ?_⟩, Selector.b_named, Selector.pc_named, fun _ => rfl,
    fun _ => ⟨op, rfl⟩⟩ <;>
    simp [advance, counting, executing, idle, drivers, accWriters]

theorem lawful_advance_halting : ({ advance with halt := true } : ControlWord).Lawful := by
  refine ⟨⟨?_, ?_, ?_, ?_⟩, by decide, by decide, fun _ => rfl, ?_⟩ <;>
    simp [advance, counting, idle, drivers, accWriters]

theorem fetch_lawful : ∀ w ∈ fetch, w.Lawful := by
  simp only [fetch, List.forall_mem_cons]
  exact ⟨lawful_addressFrom (by decide), lawful_transfer trivial trivial, lawful_advance, by simp⟩

theorem fetchWord_lawful : ∀ w ∈ fetchWord, w.Lawful := by
  simp only [fetchWord, List.forall_mem_cons]
  exact ⟨lawful_addressFrom (by decide),
    lawful_transfer trivial (by decide : Selector.z ∈ Selector.named), lawful_advance,
    lawful_addressFrom (by decide),
    lawful_transfer trivial (by decide : Selector.w ∈ Selector.named), by simp⟩

theorem pushByte_lawful {s : BusSource} (hs : s.Named) : ∀ w ∈ pushByte s, w.Lawful := by
  simp only [pushByte, List.forall_mem_cons]
  exact ⟨lawful_counting (by decide) rfl, lawful_addressFrom (by decide),
    lawful_transfer hs trivial, by simp⟩

theorem popByte_lawful {t : BusTarget} (ht : t.Named) : ∀ w ∈ popByte t, w.Lawful := by
  simp only [popByte, List.forall_mem_cons]
  exact ⟨lawful_addressFrom (by decide), lawful_transfer trivial ht,
    lawful_counting (by decide) rfl, by simp⟩

/-- No part of the machine refuses a word of a microprogram. -/
theorem program_lawful (i : Instruction) : ∀ w ∈ program i, w.Lawful := by
  have register {s t : Selector} (hs : s ∈ Selector.named) (ht : t ∈ Selector.named) :
      (transfer (.register s) (.register t)).Lawful := lawful_transfer hs ht
  cases i <;> simp only [program, List.forall_mem_cons, List.forall_mem_append]
  case halt => exact ⟨lawful_halting, by simp⟩
  case unimplemented => exact ⟨lawful_halting, by simp⟩
  case moveFromMemory t =>
    exact ⟨lawful_addressFrom (by decide), lawful_transfer trivial (target_named t), by simp⟩
  case moveToMemory s =>
    exact ⟨lawful_addressFrom (by decide), lawful_transfer (source_named s) trivial, by simp⟩
  case move t s => exact ⟨lawful_transfer (source_named s) (target_named t), by simp⟩
  case moveImmediateToMemory =>
    exact ⟨lawful_addressFrom (by decide),
      lawful_transfer trivial (by decide : Selector.w ∈ Selector.named),
      lawful_addressFrom (by decide),
      lawful_transfer (by decide : Selector.w ∈ Selector.named) trivial, lawful_advance, by simp⟩
  case moveImmediate t =>
    exact ⟨lawful_addressFrom (by decide), lawful_transfer trivial (target_named t),
      lawful_advance, by simp⟩
  case stepMemory decrement =>
    have load : (transfer .memory .accumulator).Lawful := lawful_transfer trivial trivial
    have write : (transfer .accumulator .memory).Lawful := lawful_transfer trivial trivial
    exact ⟨lawful_addressFrom (by decide), load.saving, lawful_executing _, write.restoring rfl,
      by simp⟩
  case stepRegister t decrement =>
    have named := target_named t
    cases ht : t.selector? with
    | none => simpa using lawful_executing _
    | some s =>
      simp only [target, ht] at named
      have load : (transfer (.register s) .accumulator).Lawful := lawful_transfer named trivial
      have write : (transfer .accumulator (.register s)).Lawful := lawful_transfer trivial named
      simp only [List.forall_mem_cons]
      exact ⟨load.saving, lawful_executing _, write.restoring rfl, by simp⟩
  case stepPair t decrement =>
    exact ⟨lawful_counting t.selector_named t.selector_pair, by simp⟩
  case loadPairImmediate t =>
    exact ⟨fetchWord_lawful, register (by decide) t.selector_named, lawful_advance, by simp⟩
  case operateMemory op =>
    exact ⟨lawful_addressFrom (by decide), lawful_transfer trivial trivial, lawful_executing op,
      by simp⟩
  case operateRegister op s =>
    exact ⟨lawful_transfer (source_named s) trivial, lawful_executing op, by simp⟩
  case operateImmediate op =>
    exact ⟨lawful_addressFrom (by decide), lawful_transfer trivial trivial,
      lawful_advance_executing op, by simp⟩
  case operateAccumulator op => exact ⟨lawful_executing op, by simp⟩
  case jump k => exact ⟨fetchWord_lawful, register (by decide) (by decide), by simp⟩
  case call k =>
    exact ⟨⟨⟨⟨fetchWord_lawful, lawful_advance, by simp⟩,
      pushByte_lawful (by decide : Selector.pcLow ∈ Selector.named)⟩,
      pushByte_lawful (by decide : Selector.pcHigh ∈ Selector.named)⟩,
      register (by decide) (by decide), by simp⟩
  case ret k =>
    exact ⟨⟨popByte_lawful (by decide : Selector.w ∈ Selector.named),
      popByte_lawful (by decide : Selector.z ∈ Selector.named)⟩,
      register (by decide) (by decide), by simp⟩
  case output => exact ⟨lawful_advance_halting, by simp⟩
  case exchange =>
    exact ⟨register (by decide) (by decide), register (by decide) (by decide),
      register (by decide) (by decide), by simp⟩
  case exchangeStackTop =>
    exact ⟨register (by decide) (by decide), lawful_addressFrom (by decide),
      lawful_transfer trivial (by decide : Selector.l ∈ Selector.named),
      lawful_transfer (by decide : Selector.z ∈ Selector.named) trivial,
      lawful_counting (by decide) rfl, lawful_addressFrom (by decide),
      lawful_transfer trivial (by decide : Selector.h ∈ Selector.named),
      lawful_transfer (by decide : Selector.w ∈ Selector.named) trivial,
      lawful_counting (by decide) rfl, by simp⟩
  case jumpHl => exact ⟨register (by decide) (by decide), by simp⟩
  case direct load =>
    refine ⟨fetchWord_lawful, lawful_advance, lawful_addressFrom (by decide), ?_, by simp⟩
    cases load <;> exact lawful_transfer trivial trivial
  case push s => exact ⟨pushByte_lawful (pushHigh_named s), pushByte_lawful (pushLow_named s)⟩
  case pop t => exact ⟨popByte_lawful (popLow_named t), popByte_lawful (popHigh_named t)⟩
  case addPair s =>
    have load {s : Selector} (hs : s ∈ Selector.named) :
        (transfer (.register s) .accumulator).Lawful := lawful_transfer hs trivial
    have result {t : Selector} (ht : t ∈ Selector.named) :
        (transfer .accumulator (.register t)).Lawful := lawful_transfer trivial ht
    exact ⟨(load (by decide)).saving, lawful_transfer s.low_named trivial, lawful_executing _,
      result (by decide), load (by decide), lawful_transfer s.high_named trivial,
      lawful_executing _, (result (by decide)).restoring rfl, register (by decide) (by decide),
      by simp⟩
  case indirect p load =>
    refine ⟨register p.high_named (by decide), register p.low_named (by decide),
      lawful_addressFrom (by decide), lawful_idle, ?_, by simp⟩
    cases load <;> exact lawful_transfer trivial trivial

end Microcode

end Micro8080
