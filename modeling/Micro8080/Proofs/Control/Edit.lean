import Mathlib.Data.List.Basic
import Micro8080.Control.Edit

/-! # Edits on the wires

A control word goes over 32 wires.  There an edit asserts a signal by its mask, and replaces a field
by clearing its wires and shifting the new value onto them (`Edit.onWires`).  This is what an edit of
the word comes to once it is packed (`ofBits_onWires`), because no two parts of a word share a wire
(`Part.apart`), so that an edit reaches the part that it addresses and no other one.

After any edits a field is what the last edit of that field made it, a signal is asserted if it ever
was, and the order of edits of different parts does not matter (`edits_independent`).
-/

namespace Micro8080

namespace Signal

def wire : Signal → Nat
  | halt => 31 | execute => 30 | loadFlags => 29 | loadAcc => 28 | saveAcc => 27
  | restoreAcc => 26 | loadOperand => 25 | driveAcc => 19 | driveFlags => 18
  | driveRegister => 5 | loadRegister => 4 | writeMemory => 3 | loadAddress => 2
  | driveMemory => 1 | loadInstruction => 0

def mask (s : Signal) : BitVec 32 := .twoPow 32 s.wire

theorem wire_lt (s : Signal) : s.wire < 32 := by
  cases s <;> decide

theorem mem_all (s : Signal) : s ∈ all := by
  cases s <;> decide

end Signal

namespace ControlWord

/-! ## Parts -/

/-- A signal or a field of a word. -/
inductive Part where
  | signal (s : Signal)
  | operation
  | read
  | write
  | count
  deriving DecidableEq

namespace Part

def low : Part → Nat
  | signal s => s.wire
  | operation => 20
  | read => 13
  | write => 8
  | count => 6

def width : Part → Nat
  | signal _ => 1
  | operation | read | write => 5
  | count => 2

/-- What the wires of a part carry. -/
def field (p : Part) (u : BitVec 32) : BitVec p.width := u.extractLsb' p.low p.width

/-- Two words are alike in a part. -/
def Agrees : Part → ControlWord → ControlWord → Prop
  | signal s, w, w' => w.has s = w'.has s
  | operation, w, w' => w.opCode = w'.opCode
  | read, w, w' => w.read = w'.read
  | write, w, w' => w.write = w'.write
  | count, w, w' => w.count = w'.count

theorem Agrees.symm {p : Part} {w w' : ControlWord} (h : p.Agrees w w') : p.Agrees w' w := by
  cases p <;> exact Eq.symm h

theorem Agrees.trans {p : Part} {w w' w'' : ControlWord} (h : p.Agrees w w')
    (h' : p.Agrees w' w'') : p.Agrees w w'' := by
  cases p <;> exact Eq.trans h h'

theorem high_le (p : Part) : p.low + p.width ≤ 32 := by
  cases p with
  | signal s => exact s.wire_lt
  | _ => decide

def all : List Part := Signal.all.map signal ++ [operation, read, write, count]

theorem mem_all (p : Part) : p ∈ all := by
  cases p with
  | signal s => exact List.mem_append_left _ (List.mem_map_of_mem s.mem_all)
  | _ => decide

/-- No two parts share a wire. -/
theorem apart {p q : Part} (ne : p ≠ q) : p.low + p.width ≤ q.low ∨ q.low + q.width ≤ p.low := by
  have each : ∀ p ∈ all, ∀ q ∈ all, p ≠ q →
      p.low + p.width ≤ q.low ∨ q.low + q.width ≤ p.low := by decide
  exact each p p.mem_all q q.mem_all ne

end Part

theorem ext_parts {w w' : ControlWord} (alike : ∀ p : Part, p.Agrees w w') : w = w' := by
  cases w
  cases w'
  simp only [mk.injEq]
  exact ⟨alike (.signal .halt), alike (.signal .execute), alike (.signal .loadFlags),
    alike (.signal .loadAcc), alike (.signal .saveAcc), alike (.signal .restoreAcc),
    alike (.signal .loadOperand), alike .operation, alike (.signal .driveAcc),
    alike (.signal .driveFlags), alike .read, alike .write, alike .count,
    alike (.signal .driveRegister), alike (.signal .loadRegister), alike (.signal .writeMemory),
    alike (.signal .loadAddress), alike (.signal .driveMemory), alike (.signal .loadInstruction)⟩

theorem has_ofBits (u : BitVec 32) (s : Signal) : (ofBits u).has s = u.getLsbD s.wire := by
  cases s <;> rfl

theorem has_ofBits_iff (u : BitVec 32) (s : Signal) :
    (ofBits u).has s = true ↔ u &&& s.mask ≠ 0 := by
  have mask_ne : s.mask ≠ 0 := by cases s <;> decide
  rw [has_ofBits, Signal.mask, BitVec.and_twoPow]
  split
  next asserted => exact iff_of_true asserted mask_ne
  next bare => exact iff_of_false bare (not_not_intro rfl)

theorem field_signal (u : BitVec 32) (s : Signal) :
    (Part.signal s).field u = .ofBool ((ofBits u).has s) := by
  apply BitVec.eq_of_getLsbD_eq
  intro i lt
  obtain rfl : i = 0 := Nat.lt_one_iff.1 lt
  simp [Part.field, Part.low, Part.width, has_ofBits]

theorem agrees_ofBits {p : Part} {u u' : BitVec 32} (same : p.field u = p.field u') :
    p.Agrees (ofBits u) (ofBits u') := by
  cases p with
  | signal s =>
    rw [field_signal, field_signal] at same
    exact BitVec.ofBool_eq_iff_eq.1 same
  | operation => exact same
  | read | write => exact congrArg Selector.ofBits same
  | count => exact congrArg Count.ofBits same

/-! ## Replacing a field -/

/-- The wires from `low` on carry a value instead of what they carried. -/
def replace {n : Nat} (u : BitVec 32) (low : Nat) (v : BitVec n) : BitVec 32 :=
  u &&& ~~~((BitVec.allOnes n).setWidth 32 <<< low) ||| v.setWidth 32 <<< low

section Wires

variable {n low i : Nat} (u : BitVec 32)

theorem getLsbD_replace (v : BitVec n) (lt : i < 32) :
    (replace u low v).getLsbD i =
      if low ≤ i ∧ i < low + n then v.getLsbD (i - low) else u.getLsbD i := by
  have near : i - low < 32 := by omega
  simp only [replace, BitVec.getLsbD_or, BitVec.getLsbD_and, BitVec.getLsbD_not,
    BitVec.getLsbD_shiftLeft, BitVec.getLsbD_setWidth, BitVec.getLsbD_allOnes, lt, near,
    decide_true, Bool.true_and]
  split
  next within =>
    have inside : ¬ i < low ∧ i - low < n := by omega
    simp [inside]
  next without =>
    by_cases below : i < low
    · simp [below]
    · have beyond : n ≤ i - low := by omega
      simp [below, Nat.not_lt.2 beyond, BitVec.getLsbD_of_ge v _ beyond]

theorem or_mask (s : Signal) : u ||| s.mask = replace u s.wire 1#1 := by
  apply BitVec.eq_of_getLsbD_eq
  intro i lt
  have := s.wire_lt
  rw [getLsbD_replace u _ lt, BitVec.getLsbD_or, Signal.mask, BitVec.getLsbD_twoPow]
  split
  next within =>
    have here : i = s.wire := by omega
    simp [here, s.wire_lt]
  next without =>
    have elsewhere : s.wire ≠ i := by omega
    simp [elsewhere]

theorem field_replace_self (p : Part) (v : BitVec p.width) : p.field (replace u p.low v) = v := by
  apply BitVec.eq_of_getLsbD_eq
  intro i lt
  have := p.high_le
  rw [Part.field, BitVec.getLsbD_extractLsb', getLsbD_replace u v (by omega), if_pos (by omega)]
  simp [lt]

theorem field_replace_of_ne {p q : Part} (ne : p ≠ q) (v : BitVec q.width) :
    p.field (replace u q.low v) = p.field u := by
  apply BitVec.eq_of_getLsbD_eq
  intro i lt
  have := p.high_le
  have := Part.apart ne
  rw [Part.field, Part.field, BitVec.getLsbD_extractLsb', BitVec.getLsbD_extractLsb',
    getLsbD_replace u v (by omega), if_neg (by omega)]

end Wires

/-! ## Edits -/

namespace Edit

def part : Edit → Part
  | assert s => .signal s
  | operation _ => .operation
  | read _ => .read
  | write _ => .write
  | count _ => .count

/-- What an edit puts on the wires of its part. -/
def value : (e : Edit) → BitVec e.part.width
  | assert _ => 1#1
  | operation op => op.code
  | read s | write s => s.bits
  | count k => k.bits

def onWires (u : BitVec 32) : Edit → BitVec 32
  | assert s => u ||| s.mask
  | operation op => replace u 20 op.code
  | read s => replace u 13 s.bits
  | write s => replace u 8 s.bits
  | count k => replace u 6 k.bits

theorem onWires_eq (u : BitVec 32) (e : Edit) : e.onWires u = replace u e.part.low e.value := by
  cases e with
  | assert s => exact or_mask u s
  | _ => rfl

/-- An edit does not reach the wires of the other parts. -/
theorem field_onWires {p : Part} {e : Edit} (ne : p ≠ e.part) (u : BitVec 32) :
    p.field (e.onWires u) = p.field u := by
  rw [onWires_eq]
  exact field_replace_of_ne u ne e.value

end Edit

variable {p : Part} {e e' : Edit} {w w' : ControlWord}

section Assert

variable (w : ControlWord) (s t : Signal)

theorem has_assert : (w.assert s).has t = (w.has t || decide (s = t)) := by
  cases s <;> cases t <;> simp [assert, has]

@[simp] theorem opCode_assert : (w.assert s).opCode = w.opCode := by cases s <;> rfl
@[simp] theorem read_assert : (w.assert s).read = w.read := by cases s <;> rfl
@[simp] theorem write_assert : (w.assert s).write = w.write := by cases s <;> rfl
@[simp] theorem count_assert : (w.assert s).count = w.count := by cases s <;> rfl

end Assert

theorem has_edit (w : ControlWord) (e : Edit) (s : Signal) :
    (w.edit e).has s = (w.has s || decide (e = .assert s)) := by
  cases e with
  | assert t => simp [edit, has_assert]
  | _ => cases s <;> simp [edit, has]

theorem agrees_edit (ne : p ≠ e.part) (w : ControlWord) : p.Agrees (w.edit e) w := by
  cases p with
  | signal s =>
    have other : e ≠ .assert s := by
      rintro rfl
      exact ne rfl
    simp [Part.Agrees, has_edit, other]
  | _ =>
    revert ne
    cases e <;> simp [Part.Agrees, edit, Edit.part]

theorem agrees_edit_edit (e : Edit) (w w' : ControlWord) :
    e.part.Agrees (w.edit e) (w'.edit e) := by
  cases e with
  | assert s => simp [Edit.part, Part.Agrees, edit, has_assert]
  | _ => rfl

theorem Part.Agrees.edit (h : p.Agrees w w') (e : Edit) : p.Agrees (w.edit e) (w'.edit e) := by
  by_cases own : p = e.part
  · exact own ▸ agrees_edit_edit e w w'
  · exact (agrees_edit own w).trans (h.trans (agrees_edit own w').symm)

theorem edit_comm (ne : e.part ≠ e'.part) (w : ControlWord) :
    (w.edit e).edit e' = (w.edit e').edit e := by
  -- each part is edited by one of the two at most, so the other one does not matter to it
  refine ext_parts fun p => ?_
  by_cases own : p = e.part
  · exact (agrees_edit (own ▸ ne) _).trans ((agrees_edit (own ▸ ne) w).symm.edit e)
  · exact ((agrees_edit own w).edit e').trans (agrees_edit own _).symm

/-- Unpacking turns an edit of the wires into the edit of the word. -/
theorem ofBits_onWires (u : BitVec 32) (e : Edit) : ofBits (e.onWires u) = (ofBits u).edit e := by
  refine ext_parts fun p => ?_
  by_cases own : p = e.part
  · subst own
    have value : e.part.field (e.onWires u) = e.value := by
      rw [Edit.onWires_eq, field_replace_self]
    cases e with
    | assert s =>
      have asserted : ((ofBits u).assert s).has s = true := by simp [has_assert]
      have bit : BitVec.ofBool ((ofBits (u ||| s.mask)).has s) = .ofBool true :=
        (field_signal _ s).symm.trans value
      exact (BitVec.ofBool_eq_iff_eq.1 bit).trans asserted.symm
    | operation => exact value
    | read s | write s => exact (congrArg Selector.ofBits value).trans s.ofBits_bits
    | count k => exact (congrArg Count.ofBits value).trans k.ofBits_bits
  · exact (agrees_ofBits (Edit.field_onWires own u)).trans (agrees_edit own _).symm

/-! ## Sequences of edits -/

theorem ofBits_foldl (es : List Edit) (u : BitVec 32) :
    ofBits (es.foldl Edit.onWires u) = es.foldl edit (ofBits u) := by
  induction es generalizing u with
  | nil => rfl
  | cons e es ih => rw [List.foldl_cons, List.foldl_cons, ih, ofBits_onWires]

theorem foldl_edit_last {α : Type} {read : ControlWord → α} {set? : Edit → Option α}
    (sets : ∀ w e, read (edit w e) = (set? e).getD (read w)) (es : List Edit) (w : ControlWord) :
    read (es.foldl edit w) = (es.filterMap set?).getLast?.getD (read w) := by
  induction es generalizing w with
  | nil => rfl
  | cons e es ih =>
    rw [List.foldl_cons, ih, sets]
    cases value : set? e with
    | none => rw [List.filterMap_cons_none value, Option.getD_none]
    | some v =>
      rw [List.filterMap_cons_some value, List.getLast?_cons]
      rfl

theorem has_foldl (es : List Edit) (w : ControlWord) (s : Signal) :
    (es.foldl edit w).has s = (w.has s || decide (.assert s ∈ es)) := by
  induction es generalizing w with
  | nil => simp
  | cons e es ih => simp [ih, has_edit, Bool.or_assoc, eq_comm]

namespace Edit

def code? : Edit → Option (BitVec 5)
  | operation op => some op.code
  | _ => none

def read? : Edit → Option Selector
  | read s => some s
  | _ => none

def write? : Edit → Option Selector
  | write s => some s
  | _ => none

def count? : Edit → Option Count
  | count k => some k
  | _ => none

end Edit

/-- Edits of any word: on the wires they are masks and shifts; each field is what it was last
replaced by, or what it was at first; each signal is asserted that was at first or ever since; and an
edit of one part commutes with the edits of the others and leaves them alone. -/
theorem edits_independent (v : BitVec 32) (es : List Edit) :
    let w := es.foldl edit (ofBits v)
    w.bits = es.foldl Edit.onWires v ∧
    w.opCode = (es.filterMap Edit.code?).getLast?.getD (v.extractLsb' 20 5) ∧
    w.read = (es.filterMap Edit.read?).getLast?.getD (.ofBits (v.extractLsb' 13 5)) ∧
    w.write = (es.filterMap Edit.write?).getLast?.getD (.ofBits (v.extractLsb' 8 5)) ∧
    w.count = (es.filterMap Edit.count?).getLast?.getD (.ofBits (v.extractLsb' 6 2)) ∧
    (∀ s, w.has s = true ↔ v &&& s.mask ≠ 0 ∨ .assert s ∈ es) ∧
    (∀ e e' : Edit, e.part ≠ e'.part → (w.edit e).edit e' = (w.edit e').edit e) ∧
    ∀ (e : Edit) (p : Part), p ≠ e.part → p.Agrees (w.edit e) w := by
  intro w
  refine ⟨?_, ?_, ?_, ?_, ?_, fun s => ?_, fun e e' ne => edit_comm ne w,
    fun e p ne => agrees_edit ne w⟩
  · rw [← bits_ofBits (es.foldl Edit.onWires v), ofBits_foldl]
  · exact foldl_edit_last (fun w e => by cases e <;> simp [edit, Edit.code?]) es (ofBits v)
  · exact foldl_edit_last (fun w e => by cases e <;> simp [edit, Edit.read?]) es (ofBits v)
  · exact foldl_edit_last (fun w e => by cases e <;> simp [edit, Edit.write?]) es (ofBits v)
  · exact foldl_edit_last (fun w e => by cases e <;> simp [edit, Edit.count?]) es (ofBits v)
  · rw [has_foldl, Bool.or_eq_true, has_ofBits_iff, decide_eq_true_iff]

/-- A register to read is replaced although all its wires were up, and so is an operation. -/
theorem edits_independent_replaced :
    let w := [.read .sp, .assert .halt, .read .hl, .operation .dcr, .operation .sub].foldl edit
      (ofBits 0x7FFFFFFF)
    w.opCode = Operation.sub.code ∧ w.read = .hl ∧ w.has .halt = true ∧
    (w.edit (.write .pc)).edit (.read .b) = (w.edit (.read .b)).edit (.write .pc) ∧
    (w.edit (.write .pc)).read = .hl := by
  obtain ⟨-, code, read, -, -, has, commutes, leaves⟩ := edits_independent 0x7FFFFFFF
    [.read .sp, .assert .halt, .read .hl, .operation .dcr, .operation .sub]
  exact ⟨code, read, (has .halt).2 (.inr (by decide)), commutes _ _ (by decide),
    Eq.trans (leaves (.write .pc) .read (by decide)) read⟩

end ControlWord

end Micro8080
