import Micro8080.Proofs.Program.Timing

/-! # In the middle of an instruction

A machine that no fault has stopped is always somewhere in the course of an instruction: it was
ready once, and has taken no more half-ticks since than the instruction at its program counter takes
(`Midway`).  The next half-tick leads on in this instruction or begins the one after it
(`Placed.halfTick`), and a reset pulse begins again from nothing.

So what is known of each half-tick of an instruction is known of any machine that a host can get to
see.  Here it is what a machine shows that has come to rest (`Resting`).
-/

namespace Micro8080

open Microcode

theorem Instruction.halts_decode_iff (opcode : UInt8) :
    (Instruction.decode opcode).halts = true ↔
      Instruction.decode opcode = .halt ∨
        Instruction.decode opcode = .unimplemented opcode := by
  constructor
  · intro halts
    rw [decode_of_halts halts]
    split
    · exact .inl rfl
    · exact .inr rfl
  · rintro (halt | unimplemented)
    · rw [halt]
      rfl
    · rw [unimplemented]
      rfl

theorem Microcode.haltReason?_decode {opcode : UInt8}
    (halts : (Instruction.decode opcode).halts = true) (p : Probe) :
    haltReason? (.decode opcode) p =
      some (if opcode = 0x76 then .instruction else .unimplemented opcode (p.pc - 1)) := by
  rw [decode_of_halts halts]
  split <;> rfl

namespace Machine

/-! ## Rest -/

/-- The machine rests at stage 3, on an opcode that halts.  It says why, and memory still holds the
opcode before the program counter. -/
structure Resting (m : Machine) : Prop where
  stage : m.sequencer.stage = 3
  halts : (Instruction.decode m.opcode).halts = true
  reason : m.haltReason =
    some (if m.opcode = 0x76 then .instruction else .unimplemented m.opcode (m.pc - 1))
  source : m.memory.read (m.pc - 1) = m.opcode

variable {m r : Machine} {n : Nat}

theorem Ready.named_of_ok (h : r.Ready) (later : 7 < n) (ok : (r.halfTicks n).fault = none) :
    r.programState.instruction.operation? ≠ some .daa := by
  intro named
  have refused := (h.refuses named).1
  rw [fault_of_le ok later] at refused
  cases refused

/-- The machine rests in those half-ticks of an instruction that follow a halt. -/
theorem Ready.halted_iff (h : r.Ready) (begun : 0 < n) (within : n ≤ r.programState.halfTicks)
    (ok : (r.halfTicks n).fault = none) :
    (r.halfTicks n).machine.halted = true ↔
      7 ≤ n ∧ r.programState.instruction.halts = true := by
  rcases Nat.lt_or_ge n 7 with early | decided
  · obtain ⟨ds, passes, words, -⟩ := h.fetches
    have plain : ∀ w ∈ fetch, w.halts = false := by decide
    have three : ds.length = 3 := by
      rw [← List.length_map, words]
      rfl
    have goes := passes.periods.halted_within
      (fun d mem => plain d.word (words ▸ List.mem_map_of_mem mem)) begun (by omega)
    rw [goes]
    exact iff_of_false nofun (by omega)
  · rw [and_iff_right decided]
    rcases Nat.eq_or_lt_of_le decided with rfl | later
    · rw [h.asks.2.1]
    · obtain ⟨es, k, performs, words, total⟩ := h.performs_fetched (h.named_of_ok later ok)
      obtain ⟨ok6, reached, -⟩ := h.fetch_halfTicks
      have split : n = 6 + (n - 6) := by omega
      have rests := performs.periods.halted_within
        (fun d mem => halts_of_mem_ownWords (words ▸ List.mem_map_of_mem mem))
        (by omega : 0 < n - 6) (by omega)
      rw [split, halfTicks_add, Moment.machine_andThen_of_ok ok6, reached, rests]

theorem Ready.fetched_holds (h : r.Ready) :
    r.fetched.opcode = r.memory.read r.pc ∧ r.fetched.pc - 1 = r.pc ∧
      r.fetched.memory.bytes = r.memory.bytes := by
  obtain ⟨-, -, -, -, -, -, datapath, -⟩ := h.fetches
  rw [Datapath.run_fetch] at datapath
  have opcode : r.fetched.opcode = r.memory.read r.pc := congrArg Datapath.opcode datapath
  have pc : r.fetched.pc = r.pc + 1 := congrArg (fun d => d.pc) datapath
  have bytes : r.fetched.memory.bytes = r.memory.bytes := congrArg (fun d => d.memory) datapath
  refine ⟨opcode, ?_, bytes⟩
  rw [pc, UInt16.add_sub_cancel]

theorem Ready.resting_seven (h : r.Ready) (halts : r.programState.instruction.halts = true) :
    (r.halfTicks 7).machine.Resting := by
  obtain ⟨ok, reached, -⟩ := h.fetch_halfTicks
  obtain ⟨-, -, -, live, more, stage, -, -⟩ := h.fetches
  obtain ⟨opcode, back, bytes⟩ := h.fetched_holds
  have decodes : (Instruction.decode r.fetched.opcode).halts = true := by
    rw [opcode]
    exact halts
  obtain ⟨d, decided, decide⟩ := decides_three more stage
  have reason := decision_halt decided
  rw [haltReason?_decode decodes] at reason
  obtain ⟨alu, driven, -, drive, -, tocked⟩ := live.tock decide
  have lawful : d.word.Lawful := (Sequencer.Coherent.of_adopt decide).lawful
  rw [driven_eq lawful drive] at tocked
  rw [halfTicks_succ 6, Moment.machine_andThen_of_ok ok, reached, tocked]
  refine ⟨?_, decodes, ?_, ?_⟩
  · show r.fetched.sequencer.fall.stage = 3
    rw [Sequencer.fall_stage more (by omega), stage]
  · show (d.halt <|> r.fetched.sequencer.haltReason) = _
    rw [reason]
    rfl
  · show r.fetched.memory.bytes[(r.fetched.pc - 1).toNat % 2048] = r.fetched.opcode
    simp only [back, bytes, opcode]
    rfl

theorem Ready.resting (h : r.Ready) (halts : r.programState.instruction.halts = true)
    (decided : 7 ≤ n) (within : n ≤ r.programState.halfTicks) :
    (r.halfTicks n).machine.Resting := by
  have seven := h.resting_seven halts
  obtain ⟨total, last⟩ := h.rests halts
  -- a halt has no half-tick after its decision but the one that does nothing
  obtain rfl | rfl : n = 7 ∨ n = 8 := by omega
  · exact seven
  · rw [last]
    exact ⟨seven.stage, seven.halts, seven.reason, seven.source⟩

/-! ## Places in an instruction -/

/-- The machine `m` is `n` half-ticks into the instruction of the ready machine `r`.  The reset line
may be up by now, and the marker of skipped calls be another one. -/
structure Midway (r : Machine) (n : Nat) (m : Machine) : Prop where
  ready : r.Ready
  within : n ≤ r.programState.halfTicks
  ok : (r.halfTicks n).fault = none
  /-- A machine that rests is said to be at the end of a halt. -/
  going : n = 0 → r.halted = false
  machine : ∃ line b, m = { (r.halfTicks n).machine.marked b with resetPending := line }

def Placed (m : Machine) : Prop := ∃ r n, Midway r n m

theorem Ready.placed (h : r.Ready) (going : r.halted = false) : r.Placed :=
  ⟨r, 0, h, Nat.zero_le _, rfl, fun _ => going, r.resetPending, r.sequencer.skippedCall, rfl⟩

theorem Placed.pulseReset (h : m.Placed) : m.pulseReset.Placed := by
  obtain ⟨r, n, ready, within, ok, going, line, b, rfl⟩ := h
  exact ⟨r, n, ready, within, ok, going, true, b, rfl⟩

theorem Placed.marked (h : m.Placed) (b : Bool) : (m.marked b).Placed := by
  obtain ⟨r, n, ready, within, ok, going, line, _, rfl⟩ := h
  exact ⟨r, n, ready, within, ok, going, line, b, rfl⟩

theorem Midway.ready_of_end (h : Midway r n m) (ends : n = r.programState.halfTicks) :
    (r.halfTicks n).machine.Ready := by
  have long := r.programState.halfTicks_ge
  have named := h.ready.named_of_ok (by omega) h.ok
  rw [ends]
  exact (h.ready.spans named).2.1

/-- With the reset line down, the next half-tick goes on in the instruction, or begins another. -/
theorem Midway.next (h : Midway r n m) (line : m.resetPending = false)
    (ok : m.halfTick.fault = none) : m.halfTick.machine.Placed := by
  have kept := (clock_halfTicks h.ready.line h.ok).2
  obtain ⟨_, b, same⟩ := h.machine
  have down : m = (r.halfTicks n).machine.marked b := by
    subst same
    cases line
    rw [← kept]
    rfl
  obtain ⟨⟨b', reached⟩, -, fault⟩ := same_halfTick (r.halfTicks n).machine b
  rw [← down] at reached fault
  rw [ok] at fault
  rcases Nat.eq_or_lt_of_le h.within with ends | inside
  · refine ⟨(r.halfTicks n).machine, 1, h.ready_of_end ends, ?_, ?_, nofun, ?_⟩
    · have long := (r.halfTicks n).machine.programState.halfTicks_ge
      omega
    · rw [halfTicks_one]
      exact fault.symm
    · rw [halfTicks_one, reached]
      exact ⟨_, b', rfl⟩
  · refine ⟨r, n + 1, h.ready, inside, ?_, nofun, ?_⟩
    · rw [halfTicks_succ, Moment.fault_andThen_of_ok h.ok]
      exact fault.symm
    · rw [halfTicks_succ, Moment.machine_andThen_of_ok h.ok, reached]
      exact ⟨_, b', rfl⟩

theorem ready_clearParts (running : m.fault = none) :
    m.clearParts.Ready ∧ m.clearParts.halted = false :=
  ⟨⟨⟨running, rfl, rfl, Sequencer.coherent_powerOn _⟩, rfl⟩, rfl⟩

theorem Placed.halfTick (h : m.Placed) (ok : m.halfTick.fault = none) :
    m.halfTick.machine.Placed := by
  obtain ⟨r, n, midway⟩ := h
  cases line : m.resetPending with
  | false => exact midway.next line ok
  | true =>
    have running := (halfTick_keeps ok).1
    obtain ⟨ready, going⟩ := ready_clearParts running
    have clears : m.halfTick.machine = m.clearParts := by
      simp only [Machine.halfTick, running, line, if_true]
    rw [clears]
    exact ready.placed going

theorem Placed.resting_of_halted (h : m.Placed) (halted : m.halted = true) : m.Resting := by
  obtain ⟨r, n, ready, within, ok, going, line, b, rfl⟩ := h
  have rests : (r.halfTicks n).machine.halted = true := halted
  have begun : 0 < n := by
    rcases Nat.eq_zero_or_pos n with rfl | begun
    · have first : r.halted = true := rests
      rw [going rfl] at first
      cases first
    · exact begun
  obtain ⟨decided, halts⟩ := (ready.halted_iff begun within ok).1 rests
  have resting := ready.resting halts decided within
  exact ⟨resting.stage, resting.halts, resting.reason, resting.source⟩

end Machine

end Micro8080
