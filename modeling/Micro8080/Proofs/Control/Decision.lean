import Micro8080.Proofs.Control.Lawful

/-! # Decisions

What the controller can decide at a stage: `decision_cases` lists all of it, and the rest of the
module reads facts off that list.  A decision can always be made at the stage after one that was
not the last (`decision_succ`), its word is lawful (`decision_lawful`), and only the opcode `0x27`
ever asks for the decimal adjustment, at stage 3 (`decision_adjusts_iff`).  The host is asked at
stage 3 as well (`decision_call`).
-/

namespace Micro8080

/-- The operation that an instruction names, if it names one. -/
def Instruction.operation? : Instruction → Option Operation
  | operateMemory op | operateRegister op _ | operateImmediate op | operateAccumulator op => some op
  | _ => none

/-- The instruction brings the machine to rest. -/
def Instruction.halts : Instruction → Bool
  | halt | unimplemented _ => true
  | _ => false

namespace Microcode

open ControlWord

/-! ## Words of a microprogram -/

theorem loadInstruction_transfer {s : BusSource} {t : BusTarget} (h : t ≠ .instruction) :
    (transfer s t).loadInstruction = false := by
  cases s <;> cases t <;> first | rfl | exact absurd rfl h

theorem target_ne_instruction (r : Register) : target r ≠ .instruction := by
  cases r <;> simp [target, Register.selector?]

theorem popHigh_ne_instruction (p : StackPair) : popHigh p ≠ .instruction := by
  cases p <;> simp [popHigh]

theorem popLow_ne_instruction (p : StackPair) : popLow p ≠ .instruction := by
  cases p <;> simp [popLow]

theorem program_keeps_opcode (i : Instruction) : ∀ w ∈ program i, w.loadInstruction = false := by
  have moves := fun r => loadInstruction_transfer (s := .memory) (target_ne_instruction r)
  cases i
  case move t s =>
    simpa [program] using loadInstruction_transfer (target_ne_instruction t)
  case stepRegister t decrement =>
    cases t <;> simp [program, Register.selector?, saving, restoring, executing, transfer, driving,
      loading, idle]
  case direct load =>
    cases load <;> simp [program, fetchWord, addressFrom, advance, counting, transfer, driving,
      loading, idle]
  case indirect p load =>
    cases load <;> simp [program, addressFrom, transfer, driving, loading, idle]
  case pop t =>
    simp [program, popByte, addressFrom, counting, idle,
      loadInstruction_transfer (popHigh_ne_instruction t),
      loadInstruction_transfer (popLow_ne_instruction t),
      loadInstruction_transfer (t := .address)]
  case moveToMemory s =>
    simp [program, addressFrom, loadInstruction_transfer (t := .address),
      loadInstruction_transfer (t := .memory)]
  case operateRegister op s =>
    simp [program, executing, idle, loadInstruction_transfer (t := .operand)]
  case push s =>
    simp [program, pushByte, addressFrom, counting, idle,
      loadInstruction_transfer (t := .address), loadInstruction_transfer (t := .memory)]
  all_goals
    simp [program, fetchWord, pushByte, popByte, addressFrom, advance, counting, executing, saving,
      restoring, transfer, driving, loading, idle]
  case moveFromMemory t => exact moves t
  case moveImmediate t => exact moves t

@[simp] theorem adjusts_transfer (s : BusSource) (t : BusTarget) :
    (transfer s t).adjusts = false := by
  cases s <;> cases t <;> rfl

@[simp] theorem adjusts_saving (w : ControlWord) : w.saving.adjusts = w.adjusts := rfl

@[simp] theorem adjusts_restoring (w : ControlWord) : w.restoring.adjusts = w.adjusts := rfl

@[simp] theorem adjusts_counting (w : ControlWord) (s : Selector) (k : Count) :
    (w.counting s k).adjusts = w.adjusts := rfl

@[simp] theorem adjusts_executing (w : ControlWord) (op : Operation) :
    (w.executing op).adjusts = (op == .daa) := by
  cases op <;> rfl

@[simp] theorem adjusts_idle : idle.adjusts = false := rfl

theorem adjusts_eq_false {i : Instruction} (h : i.operation? = none) :
    ∀ w ∈ program i, w.adjusts = false := by
  have step (decrement : Bool) : (stepOperation decrement == .daa) = false := by
    cases decrement <;> rfl
  cases i
  case operateMemory | operateRegister | operateImmediate | operateAccumulator => cases h
  case stepRegister t decrement => cases t <;> simp [program, Register.selector?, step]
  case direct load => cases load <;> simp [program, fetchWord, addressFrom, advance]
  case indirect p load => cases load <;> simp [program, addressFrom]
  case halt => simp [program, adjusts, idle]
  case unimplemented => simp [program, adjusts, idle]
  case output => simp [program, adjusts, idle, advance, counting]
  all_goals simp [program, fetchWord, pushByte, popByte, addressFrom, advance, step]

theorem operation_of_adjusts {i : Instruction} {w : ControlWord} (mem : w ∈ program i)
    (h : w.adjusts = true) : i.operation? = some .daa := by
  cases named : i.operation? with
  | none =>
    rw [adjusts_eq_false named w mem] at h
    cases h
  | some op =>
    have words : ∀ w ∈ program i, w.adjusts = true → op = .daa := by
      cases i <;> cases named <;> simp [program, addressFrom]
    rw [words w mem h]

theorem program_length_pos (i : Instruction) : 0 < (program i).length := by
  cases i
  case stepRegister t decrement => cases t <;> simp [program, Register.selector?]
  all_goals simp [program, fetchWord, pushByte, popByte]

theorem program_length_le (i : Instruction) : (program i).length ≤ 13 := by
  cases i
  case stepRegister t decrement => cases t <;> simp [program, Register.selector?]
  all_goals simp [program, fetchWord, pushByte, popByte]

theorem operation_decode_eq_daa_iff (opcode : UInt8) :
    (Instruction.decode opcode).operation? = some .daa ↔ opcode = 0x27 := by
  -- the decoder is a table, so that there is nothing to do but to go through it
  have all : ∀ n < 256,
      (Instruction.decode (UInt8.ofNat n)).operation? = some .daa ↔ UInt8.ofNat n = 0x27 := by
    decide +kernel
  simpa using all opcode.toNat opcode.toNat_lt

theorem decode_daa : Instruction.decode 0x27 = .operateAccumulator .daa := rfl

theorem operation_ne_daa {opcode : UInt8} {i : Instruction} (h : Instruction.decode opcode = i)
    (other : i ≠ .operateAccumulator .daa) : i.operation? ≠ some .daa := by
  intro named
  rw [← h] at named
  have opcode_eq := (operation_decode_eq_daa_iff opcode).1 named
  rw [opcode_eq, decode_daa] at h
  exact other h.symm

/-! ## What can be decided -/

def halting (reason : HaltReason) : Decision where
  word := { idle with halt := true }
  last := true
  lastStage := 3
  halt := some reason

/-- A halting instruction has a single word of its own, and no shortcut. -/
theorem words_of_halting {i : Instruction} {p : Probe} {reason : HaltReason}
    (h : haltReason? i p = some reason) (q : Probe) :
    shortcut i q = none ∧ program i = [{ idle with halt := true }] := by
  cases i <;> first | exact ⟨rfl, rfl⟩ | cases h

theorem shortcut_word {i : Instruction} {p : Probe} {d : Decision} (h : shortcut i p = some d) :
    d.last = true ∧ d.halt = none ∧ (d.word = passOperand ∨ d.word = idle) := by
  cases i
  case jump k =>
    simp only [shortcut] at h
    split at h <;> cases h
    exact ⟨rfl, rfl, .inl rfl⟩
  case call k =>
    simp only [shortcut] at h
    split at h
    · cases h
      exact ⟨rfl, rfl, .inl rfl⟩
    · split at h <;> cases h
      exact ⟨rfl, rfl, .inl rfl⟩
  case ret k =>
    simp only [shortcut] at h
    split at h <;> cases h
    exact ⟨rfl, rfl, .inr rfl⟩
  all_goals cases h

/-- Everything that can be decided at stage 3 or later: to halt, to take a shortcut, or to go on
with the next word of the microprogram. -/
theorem decision_cases {opcode : UInt8} {stage : Nat} {p : Probe} {d : Decision}
    (h : decision opcode stage p = .ok d) :
    (∃ reason, haltReason? (.decode opcode) p = some reason ∧ d = halting reason) ∨
    (haltReason? (.decode opcode) p = none ∧ stage = 3 ∧
      shortcut (.decode opcode) p = some d) ∨
    (haltReason? (.decode opcode) p = none ∧
      (stage = 3 → shortcut (.decode opcode) p = none) ∧
      ∃ word, (program (.decode opcode))[stage - 3]? = some word ∧
        d = { word, last := stage == (Instruction.decode opcode).lastStage,
              lastStage := (Instruction.decode opcode).lastStage }) := by
  simp only [decision] at h
  cases reason : haltReason? (.decode opcode) p with
  | some r =>
    simp only [reason] at h
    cases h
    exact .inl ⟨r, rfl, rfl⟩
  | none =>
    simp only [reason] at h
    cases short : (if stage = 3 then shortcut (.decode opcode) p else none) with
    | some e =>
      simp only [short] at h
      cases h
      split at short
      · next at3 => exact .inr (.inl ⟨rfl, at3, short⟩)
      · cases short
    | none =>
      have noShortcut : stage = 3 → shortcut (.decode opcode) p = none := fun at3 => by
        simpa [at3] using short
      simp only [short] at h
      cases word : (program (.decode opcode))[stage - 3]? with
      | none => simp only [word] at h; cases h
      | some v =>
        simp only [word] at h
        cases h
        exact .inr (.inr ⟨rfl, noShortcut, v, rfl, rfl⟩)

theorem decision_program {opcode : UInt8} {stage : Nat} {p : Probe} {w : ControlWord}
    (runs : haltReason? (.decode opcode) p = none)
    (long : stage = 3 → shortcut (.decode opcode) p = none)
    (word : (program (.decode opcode))[stage - 3]? = some w) :
    decision opcode stage p =
      .ok { word := w, last := stage == (Instruction.decode opcode).lastStage,
            lastStage := (Instruction.decode opcode).lastStage } := by
  have noShortcut : (if stage = 3 then shortcut (.decode opcode) p else none) = none := by
    split
    · next at3 => exact long at3
    · rfl
  simp only [decision, runs, noShortcut, word]

theorem decision_lawful {opcode : UInt8} {stage : Nat} {p : Probe} {d : Decision}
    (h : decision opcode stage p = .ok d) :
    d.word.Lawful ∧ d.word.loadInstruction = false := by
  rcases decision_cases h with ⟨r, -, rfl⟩ | ⟨-, -, short⟩ | ⟨-, -, v, word, rfl⟩
  · exact ⟨lawful_halting, rfl⟩
  · rcases (shortcut_word short).2.2 with e | e <;> rw [e]
    · exact ⟨lawful_passOperand, rfl⟩
    · exact ⟨lawful_idle, rfl⟩
  · have mem := List.mem_of_getElem? word
    exact ⟨program_lawful _ v mem, program_keeps_opcode _ v mem⟩

/-- Only the opcode `0x27` ever asks for the decimal adjustment, and at stage 3. -/
theorem decision_adjusts_iff {opcode : UInt8} {stage : Nat} {p : Probe} {d : Decision}
    (h : decision opcode stage p = .ok d) (own : 3 ≤ stage) :
    d.word.adjusts = true ↔ opcode = 0x27 ∧ stage = 3 := by
  constructor
  · intro adj
    rcases decision_cases h with ⟨r, -, rfl⟩ | ⟨-, -, short⟩ | ⟨-, -, v, word, rfl⟩
    · cases adj
    · rcases (shortcut_word short).2.2 with e | e <;> rw [e] at adj <;> cases adj
    · have named := operation_of_adjusts (List.mem_of_getElem? word) adj
      have opcode_eq := (operation_decode_eq_daa_iff opcode).1 named
      subst opcode_eq
      refine ⟨rfl, ?_⟩
      have := (List.getElem?_eq_some_iff.1 word).1
      simp only [decode_daa, program, List.length_cons, List.length_nil] at this
      omega
  · rintro ⟨rfl, rfl⟩
    cases h
    rfl

theorem decision_three (opcode : UInt8) (p : Probe) : ∃ d, decision opcode 3 p = .ok d := by
  simp only [decision]
  split
  · exact ⟨_, rfl⟩
  · split
    · exact ⟨_, rfl⟩
    · rw [List.getElem?_eq_getElem (program_length_pos _)]
      exact ⟨_, rfl⟩

theorem haltReason?_eq_none {i : Instruction} {p : Probe} (h : haltReason? i p = none)
    (q : Probe) : haltReason? i q = none := by
  cases i <;> first | rfl | cases h

theorem decision_succ {opcode : UInt8} {stage : Nat} {p : Probe} {d : Decision}
    (h : decision opcode stage p = .ok d) (more : d.last = false) (own : 3 ≤ stage) (q : Probe) :
    stage + 1 ≤ (Instruction.decode opcode).lastStage ∧
      ∃ e, decision opcode (stage + 1) q = .ok e := by
  rcases decision_cases h with ⟨r, -, rfl⟩ | ⟨-, -, short⟩ | ⟨goes, -, v, word, rfl⟩
  · cases more
  · rw [(shortcut_word short).1] at more
    cases more
  · have bound := (List.getElem?_eq_some_iff.1 word).1
    have ne : stage ≠ (Instruction.decode opcode).lastStage := by simpa using more
    simp only [Instruction.lastStage] at ne ⊢
    refine ⟨by omega, ?_⟩
    have next : stage + 1 - 3 < (program (.decode opcode)).length := by omega
    simp only [decision, haltReason?_eq_none goes q, if_neg (show stage + 1 ≠ 3 by omega),
      List.getElem?_eq_getElem next]
    exact ⟨_, rfl⟩

/-! ## Halts and requests -/

@[simp] theorem halts_transfer (s : BusSource) (t : BusTarget) : (transfer s t).halts = false := by
  cases s <;> cases t <;> rfl

@[simp] theorem halts_saving (w : ControlWord) : w.saving.halts = w.halts := rfl

@[simp] theorem halts_restoring (w : ControlWord) : w.restoring.halts = w.halts := rfl

@[simp] theorem halts_executing (w : ControlWord) (op : Operation) :
    (w.executing op).halts = w.halts := rfl

@[simp] theorem halts_counting_idle (s : Selector) (k : Count) :
    (idle.counting s k).halts = false := rfl

@[simp] theorem halts_idle : idle.halts = false := rfl

/-- The words of an instruction bring the machine to rest if it halts.  To show a value is not to
halt. -/
theorem halts_of_mem_program {i : Instruction} {w : ControlWord} (mem : w ∈ program i) :
    w.halts = i.halts := by
  have all : ∀ w ∈ program i, w.halts = i.halts := by
    cases i
    case stepRegister t decrement =>
      cases t <;> simp [program, Register.selector?, Instruction.halts]
    case direct load =>
      cases load <;> simp [program, Instruction.halts, fetchWord, addressFrom, advance]
    case indirect p load => cases load <;> simp [program, Instruction.halts, addressFrom]
    case output => simp [program, advance, Instruction.halts, halts, counting, Count.isOdd]
    case halt => simp [program, Instruction.halts, halts, idle, Count.isOdd]
    case unimplemented => simp [program, Instruction.halts, halts, idle, Count.isOdd]
    all_goals simp [program, Instruction.halts, fetchWord, pushByte, popByte, addressFrom, advance]
  exact all w mem

theorem haltReason?_eq_none_iff (i : Instruction) (p : Probe) :
    haltReason? i p = none ↔ i.halts = false := by
  cases i <;> simp [haltReason?, Instruction.halts]

theorem halts_of_shortcut {i : Instruction} {p : Probe} {d : Decision}
    (h : shortcut i p = some d) : d.word.halts = i.halts := by
  have goes : i.halts = false := by cases i <;> first | rfl | cases h
  rcases (shortcut_word h).2.2 with e | e <;> rw [e, goes] <;> rfl

/-- Whatever is decided, it brings the machine to rest if the instruction halts. -/
theorem decision_halts {opcode : UInt8} {stage : Nat} {p : Probe} {d : Decision}
    (h : decision opcode stage p = .ok d) :
    d.word.halts = (Instruction.decode opcode).halts := by
  rcases decision_cases h with ⟨reason, halts, rfl⟩ | ⟨-, -, short⟩ | ⟨-, -, w, word, rfl⟩
  · cases still : (Instruction.decode opcode).halts with
    | true => rfl
    | false =>
      rw [(haltReason?_eq_none_iff _ p).2 still] at halts
      cases halts
  · exact halts_of_shortcut short
  · exact halts_of_mem_program (List.mem_of_getElem? word)

theorem decision_of_halts {opcode : UInt8} {stage : Nat} {p : Probe} {d : Decision}
    (h : decision opcode stage p = .ok d) (halts : (Instruction.decode opcode).halts = true) :
    d.word = { idle with halt := true } := by
  have going {q : Probe} (none : haltReason? (.decode opcode) q = none) : False := by
    rw [(haltReason?_eq_none_iff _ q).1 none] at halts
    cases halts
  rcases decision_cases h with ⟨reason, -, rfl⟩ | ⟨none, -, -⟩ | ⟨none, -, -⟩
  · rfl
  · exact (going none).elim
  · exact (going none).elim

theorem decision_halt {opcode : UInt8} {stage : Nat} {p : Probe} {d : Decision}
    (h : decision opcode stage p = .ok d) : d.halt = haltReason? (.decode opcode) p := by
  rcases decision_cases h with ⟨reason, halts, rfl⟩ | ⟨runs, -, short⟩ | ⟨runs, -, w, -, rfl⟩
  · exact halts.symm
  · rw [runs]
    exact (shortcut_word short).2.1
  · exact runs.symm

theorem decode_of_halts {opcode : UInt8} (halts : (Instruction.decode opcode).halts = true) :
    Instruction.decode opcode = if opcode = 0x76 then .halt else .unimplemented opcode := by
  have all : ∀ n < 256, (Instruction.decode (UInt8.ofNat n)).halts = true →
      Instruction.decode (UInt8.ofNat n) =
        if UInt8.ofNat n = 0x76 then .halt else .unimplemented (UInt8.ofNat n) := by
    decide +kernel
  have at_opcode := all opcode.toNat opcode.toNat_lt
  rw [UInt8.ofNat_toNat] at at_opcode
  exact at_opcode halts

/-- The request to the host that an instruction makes, whether its condition is met or not. -/
def request? (i : Instruction) (p : Probe) : Option SystemCall :=
  match i with
  | .call _ => if p.operand = systemVector then some { function := p.c, argument := p.de } else none
  | _ => none

theorem request?_of_shortcut {i : Instruction} {p : Probe} {d : Decision}
    (h : shortcut i p = some d) : d.call = request? i p := by
  cases i
  case jump k =>
    simp only [shortcut] at h
    split at h <;> cases h
    rfl
  case call k =>
    simp only [shortcut] at h
    split at h
    · next answers =>
      cases h
      simp only [request?, if_pos answers]
    · next own =>
      split at h <;> cases h
      simp only [request?, if_neg own]
  case ret k =>
    simp only [shortcut] at h
    split at h <;> cases h
    rfl
  all_goals cases h

theorem request?_of_no_shortcut {i : Instruction} {p : Probe} (h : shortcut i p = none) :
    request? i p = none := by
  cases i
  case call k =>
    simp only [shortcut] at h
    split at h
    · cases h
    · next own => simp only [request?, if_neg own]
  all_goals rfl

/-- The host is asked at stage 3, and by no instruction that halts. -/
theorem decision_call {opcode : UInt8} {stage : Nat} {p : Probe} {d : Decision}
    (h : decision opcode stage p = .ok d) :
    d.call = (if stage = 3 then request? (.decode opcode) p else none) ∧
      (d.halt = none ∨ d.call = none) := by
  rcases decision_cases h with ⟨reason, halts, rfl⟩ | ⟨-, rfl, short⟩ | ⟨-, long, w, word, rfl⟩
  · refine ⟨?_, .inr rfl⟩
    have silent := request?_of_no_shortcut (words_of_halting halts p).1
    rw [silent, ite_self]
    rfl
  · exact ⟨by rw [if_pos rfl, request?_of_shortcut short], .inl (shortcut_word short).2.1⟩
  · refine ⟨?_, .inr rfl⟩
    split
    · next at3 => rw [request?_of_no_shortcut (long at3)]
    · rfl

end Microcode

end Micro8080
