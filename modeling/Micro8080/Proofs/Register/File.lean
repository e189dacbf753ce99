import Mathlib.Data.List.DropRight
import Mathlib.Data.Nat.Digits.Defs
import Micro8080.Register.File

/-! # Updates of the register file

A selector stands for one cell or for two neighbours, and selectors overlap: a byte lies in a pair,
and a pair that starts at an odd cell shares each of its cells with another one.  So an update is told
by what it does to the bytes of the cells (`Update.effect`), from which it follows what each selector
reads afterwards.

Whether an update is refused does not depend on the file (`Update.Refused`), and one that is not, nor
a reset, comes to a single store (`after_cases`).  The cells show the last updates, the base of the
stack the first: it is the first word that was written to the stack pointer as a pair since the last
reset (`stackBase_foldl`).
-/

namespace Micro8080

/-! ## Cells -/

/-- What a count adds to a pair, modulo 65536. -/
def Count.addend : Count → Nat
  | none => 0
  | up => 1
  | upTwo => 2
  | down => 65535

theorem Count.delta_toNat (k : Count) : k.delta.toNat = k.addend := by
  cases k <;> rfl

namespace Selector

variable (s : Selector)

/-- The cells that a selector names, the one with the low byte first. -/
def cells : List Nat := if s.pair then [s.cell.toNat + 1, s.cell.toNat] else [s.cell.toNat]

/-- The number that bytes make up in the cells of a selector. -/
def combine (bytes : Nat → Nat) : Nat := .ofDigits 256 (s.cells.map bytes)

/-- The bytes once a number is put into the cells of a selector, of which the last one takes the low
byte. -/
def put (n : Nat) (bytes : Nat → Nat) (i : Nat) : Nat :=
  if i ∈ s.cells then n / 256 ^ (s.last - i) % 256 else bytes i

end Selector

namespace RegisterFile

variable {r : RegisterFile} {s : Selector}

/-- The byte in a cell; zero beyond the last one. -/
def byte (r : RegisterFile) (i : Nat) : Nat := (r.cells[i]?.getD 0).toNat

theorem byte_of_lt {i : Nat} (lt : i < 12) : r.byte i = r.cells[i].toNat := by
  rw [byte, Vector.getElem?_eq_getElem lt, Option.getD_some]

theorem value_toNat (h : s.last < 12) : (r.value s h).toNat = s.combine r.byte := by
  cases pair : s.pair with
  | true =>
    have lt : s.cell.toNat + 1 < 12 := by simpa [Selector.last, pair] using h
    simp only [value, pair, Selector.combine, Selector.cells, if_true, dif_pos, List.map_cons,
      List.map_nil, Nat.ofDigits_cons, Nat.ofDigits_nil, byte_of_lt lt,
      byte_of_lt (Nat.lt_of_succ_lt lt), Word.toNat_ofBytes]
    omega
  | false =>
    have lt : s.cell.toNat < 12 := by simpa [Selector.last, pair] using h
    simp [value, pair, Selector.combine, Selector.cells, byte_of_lt lt]

theorem byte_store (h : s.last < 12) (v : UInt16) :
    (r.store s h v).byte = s.put v.toNat r.byte := by
  funext i
  have := v.toNat_lt
  cases pair : s.pair with
  | true =>
    simp only [store, pair, Selector.put, Selector.cells, byte, Selector.last, dif_pos, if_true,
      Vector.getElem?_set, List.mem_cons, List.not_mem_nil, or_false, eq_comm (a := i)]
    by_cases low : s.cell.toNat + 1 = i
    · subst low
      simp
    · by_cases high : s.cell.toNat = i
      · subst high
        simp
        omega
      · simp [low, high]
  | false =>
    simp only [store, pair, Selector.put, Selector.cells, byte, Selector.last, Bool.false_eq_true,
      dif_neg, if_false, not_false_eq_true, Vector.getElem?_set, List.mem_singleton,
      eq_comm (a := i)]
    by_cases here : s.cell.toNat = i
    · subst here
      simp
    · simp [here]

/-! ## Updates -/

/-- What can be done to the file, apart from reading it. -/
inductive Update where
  | write (s : Selector) (v : UInt16)
  | count (s : Selector) (k : Count)
  | reset
  deriving DecidableEq, Repr

def update (r : RegisterFile) : Update → Except Fault RegisterFile
  | .write s v => r.write s v
  | .count s k => r.count s k
  | .reset => .ok {}

/-- The file after an update, which is the file before it if the update is refused. -/
def after (r : RegisterFile) (u : Update) : RegisterFile :=
  match r.update u with
  | .ok r' => r'
  | .error _ => r

namespace Update

inductive Refused : Update → Fault → Prop
  | write {s : Selector} {v : UInt16} (beyond : 12 ≤ s.last) :
      Refused (write s v) (.unknownRegister s.bits.toNat)
  | byte {s : Selector} {k : Count} (single : s.pair = false) :
      Refused (count s k) (.countOnByte s.bits.toNat)
  | count {s : Selector} {k : Count} (pair : s.pair = true) (beyond : 12 ≤ s.last) :
      Refused (count s k) (.unknownRegister s.bits.toNat)

/-- The bytes after an update that is not refused, from those before it. -/
def effect (bytes : Nat → Nat) : Update → Nat → Nat
  | write s v => s.put v.toNat bytes
  | count s k => s.put ((s.combine bytes + k.addend) % 65536) bytes
  | reset => fun _ => 0

/-- The word that an update writes to the stack pointer as a pair. -/
def base? : Update → Option UInt16
  | write s v => if s = .sp then some v else none
  | _ => none

/-- The update may change the byte in a cell. -/
def Touches (i : Nat) : Update → Prop
  | write s _ | count s _ => i ∈ s.cells
  | reset => True

instance (i : Nat) : (u : Update) → Decidable (u.Touches i)
  | write s _ | count s _ => inferInstanceAs (Decidable (i ∈ s.cells))
  | reset => inferInstanceAs (Decidable True)

end Update

open Update

theorem read_eq_ok_iff {v : UInt16} :
    r.read s = .ok v ↔ s.last < 12 ∧ v.toNat = s.combine r.byte := by
  rw [read]
  split
  next h =>
    rw [← value_toNat h, UInt16.toNat_inj, Except.ok.injEq]
    simp [h, eq_comm]
  next h => simp [h]

theorem read_eq_error_iff {f : Fault} :
    r.read s = .error f ↔ 12 ≤ s.last ∧ f = .unknownRegister s.bits.toNat := by
  rw [read]
  split
  next h => simp [h]
  next h => simp [Nat.not_lt.1 h, eq_comm]

theorem update_eq_error_iff {u : Update} {f : Fault} : r.update u = .error f ↔ Refused u f := by
  constructor
  · intro fails
    cases u with
    | write s v =>
      rw [update, write] at fails
      split at fails
      next => cases fails
      next h =>
        cases fails
        exact .write (Nat.not_lt.1 h)
    | count s k =>
      rw [update, count] at fails
      split at fails
      next single =>
        cases fails
        exact .byte (by simpa using single)
      next pair =>
        split at fails
        next => cases fails
        next h =>
          cases fails
          exact .count (by simpa using pair) (Nat.not_lt.1 h)
    | reset => cases fails
  · intro refused
    cases refused with
    | write beyond => exact dif_neg (Nat.not_lt.2 beyond)
    | byte single => simp [update, count, single]
    | count pair beyond => simp [update, count, pair, Nat.not_lt.2 beyond]

theorem after_of_refused {u : Update} {f : Fault} (h : Refused u f) : r.after u = r := by
  rw [after, update_eq_error_iff.2 h]

theorem out_store (h : s.last < 12) (v : UInt16) : (r.store s h v).out = r.out := by
  rw [store]
  split <;> rfl

theorem stackBase_store (h : s.last < 12) (v : UInt16) :
    (r.store s h v).stackBase = r.stackBase := by
  rw [store]
  split <;> rfl

/-- An update is refused, or a reset, or else it stores a word. -/
theorem after_cases (r : RegisterFile) (u : Update) :
    (∃ f, Refused u f ∧ r.after u = r) ∨ u = .reset ∨
      ∃ s v, ∃ h : s.last < 12, s.put v.toNat r.byte = u.effect r.byte ∧
        r.after u = { r.store s h v with stackBase := r.stackBase.or u.base? } := by
  have refuse {f : Fault} (refused : Refused u f) : ∃ f, Refused u f ∧ r.after u = r :=
    ⟨f, refused, after_of_refused refused⟩
  cases u with
  | write s v =>
    by_cases h : s.last < 12
    · refine .inr (.inr ⟨s, v, h, rfl, ?_⟩)
      simp only [after, update, write, dif_pos h, base?]
      split
      next => rw [Option.orElse_eq_orElse, Option.orElse_eq_or]
      next => rw [Option.or_none, ← stackBase_store h v]
    · exact .inl (refuse (.write (Nat.not_lt.1 h)))
  | count s k =>
    cases pair : s.pair with
    | false => exact .inl (refuse (.byte pair))
    | true =>
      by_cases h : s.last < 12
      · refine .inr (.inr ⟨s, r.value s h + k.delta, h, ?_, ?_⟩)
        · rw [UInt16.toNat_add, value_toNat, Count.delta_toNat]
          rfl
        · have count : r.count s k = .ok (r.store s h (r.value s h + k.delta)) := by
            simp [RegisterFile.count, pair, h]
          simp only [after, update, count, base?]
          rw [Option.or_none, ← stackBase_store h]
      · exact .inl (refuse (.count pair (Nat.not_lt.1 h)))
  | reset => exact .inr (.inl rfl)

theorem byte_powerOn : ({} : RegisterFile).byte = fun _ => 0 := by
  funext i
  rw [byte, Vector.getElem?_replicate]
  split <;> rfl

theorem byte_after {u : Update} (taken : ∀ f, ¬ Refused u f) :
    (r.after u).byte = u.effect r.byte := by
  obtain ⟨f, refused, -⟩ | rfl | ⟨s, v, h, put, after⟩ := r.after_cases u
  · exact absurd refused (taken f)
  · exact byte_powerOn
  · rw [after, ← put]
    exact byte_store h v

theorem out_after (r : RegisterFile) {u : Update} (ne : u ≠ .reset) : (r.after u).out = r.out := by
  obtain ⟨-, -, same⟩ | reset | ⟨s, v, h, -, after⟩ := r.after_cases u
  · rw [same]
  · exact absurd reset ne
  · rw [after]
    exact out_store h v

/-- No update but a write to the stack pointer as a pair sets the base of the stack, and it does so
once. -/
theorem stackBase_after (r : RegisterFile) {u : Update} (ne : u ≠ .reset) :
    (r.after u).stackBase = r.stackBase.or u.base? := by
  obtain ⟨f, refused, same⟩ | reset | ⟨s, v, h, -, after⟩ := r.after_cases u
  · have none : u.base? = none := by
      cases refused with
      | write beyond =>
        refine if_neg ?_
        rintro rfl
        exact absurd beyond (by decide)
      | byte | count => rfl
    rw [same, none, Option.or_none]
  · exact absurd reset ne
  · rw [after]

/-! ## Sequences of updates -/

theorem byte_after_of_untouched {u : Update} {i : Nat} (untouched : ¬ u.Touches i) :
    (r.after u).byte i = r.byte i := by
  by_cases refused : ∃ f, Refused u f
  · obtain ⟨f, refused⟩ := refused
    rw [after_of_refused refused]
  · rw [byte_after (not_exists.1 refused)]
    cases u with
    | write | count => exact if_neg untouched
    | reset => exact absurd trivial untouched

theorem byte_foldl_of_untouched {us : List Update} {i : Nat} (untouched : ∀ u ∈ us, ¬ u.Touches i)
    (r : RegisterFile) : (us.foldl after r).byte i = r.byte i := by
  induction us generalizing r with
  | nil => rfl
  | cons u us ih =>
    rw [List.foldl_cons, ih (List.forall_mem_cons.1 untouched).2,
      byte_after_of_untouched (List.forall_mem_cons.1 untouched).1]

/-- The updates since the last reset. -/
def sinceReset (us : List Update) : List Update := us.rtakeWhile (· ≠ .reset)

theorem stackBase_foldl (us : List Update) (r : RegisterFile) :
    (us.foldl after r).stackBase =
      (if .reset ∈ us then none else r.stackBase).or
        ((sinceReset us).filterMap base?).head? := by
  -- from the back, as the updates since a reset end the list
  induction us using List.reverseRecOn with
  | nil => simp [sinceReset]
  | append_singleton us u ih =>
    rw [List.foldl_append, List.foldl_cons, List.foldl_nil]
    by_cases reset : u = .reset
    · subst reset
      simp [sinceReset, after, update]
    · rw [stackBase_after _ reset, ih]
      have last : ([u].filterMap base?).head? = u.base? := by cases h : u.base? <;> simp [h]
      have kept : Update.reset ∈ us ++ [u] ↔ .reset ∈ us := by simp [Ne.symm reset]
      have since : sinceReset (us ++ [u]) = sinceReset us ++ [u] :=
        List.rtakeWhile_concat_pos _ _ _ (by simpa using reset)
      rw [since, List.filterMap_append, List.head?_append, last, Option.or_assoc]
      simp only [kept]

/-- Any updates of any file.  Reading gives what the cells of a selector make up, and an error only
where there are no cells; an update is refused for the reasons there are, the missing pair first, and
then changes nothing; and one that is not refused changes the cells that it selects, also those that
other selectors share, and no others.  The base of the stack is the first word that was written to
the stack pointer as a pair since the last reset. -/
theorem updates_exact (r : RegisterFile) (us : List Update) :
    let now := us.foldl after r
    (∀ s v, now.read s = .ok v ↔ s.last < 12 ∧ v.toNat = s.combine now.byte) ∧
    (∀ s f, now.read s = .error f ↔ 12 ≤ s.last ∧ f = .unknownRegister s.bits.toNat) ∧
    (∀ u f, now.update u = .error f ↔ Refused u f) ∧
    (∀ u f, Refused u f → now.after u = now) ∧
    (∀ u, (∀ f, ¬ Refused u f) →
      (now.after u).byte = u.effect now.byte ∧
      (∀ s v, (now.after u).read s = .ok v ↔
        s.last < 12 ∧ v.toNat = s.combine (u.effect now.byte)) ∧
      (u ≠ .reset → (now.after u).out = now.out)) ∧
    now.after .reset = {} ∧
    (∀ i, (∀ u ∈ us, ¬ u.Touches i) → now.byte i = r.byte i) ∧
    now.stackBase =
      (if .reset ∈ us then none else r.stackBase).or ((sinceReset us).filterMap base?).head? ∧
    ∀ u, u ≠ .reset → (∀ v, u ≠ .write .sp v) → (now.after u).stackBase = now.stackBase := by
  intro now
  refine ⟨fun s v => read_eq_ok_iff, fun s f => read_eq_error_iff,
    fun u f => update_eq_error_iff, fun u f => after_of_refused, fun u taken => ?_, rfl,
    fun i untouched => byte_foldl_of_untouched untouched r, stackBase_foldl us r,
    fun u ne other => ?_⟩
  · have bytes := byte_after (r := now) taken
    exact ⟨bytes, fun s v => bytes ▸ read_eq_ok_iff, fun ne => now.out_after ne⟩
  · have none : u.base? = none := by
      cases u with
      | write s v => exact if_neg fun sp => other v (congrArg (Update.write · v) sp)
      | count | reset => rfl
    rw [stackBase_after _ ne, none, Option.or_none]

/-- The pair of cells 9 and 10 takes the low byte of PC and the high byte of SP. -/
theorem updates_exact_straddling :
    let now := [.write .spLow 0x10, .write .sp 0x0400, .count .sp .down].foldl after {}
    let straddled := now.after (.write ⟨true, 9⟩ 0xABCD)
    straddled.read .sp = .ok 0xCDFF ∧ straddled.read .pc = .ok 0x00AB ∧ straddled.out = now.out ∧
    now.after (.count .b .up) = now ∧ now.byte 0 = 0 ∧ straddled.stackBase = some 0x0400 := by
  obtain ⟨-, -, -, refuses, takes, -, untouched, base, keeps⟩ :=
    updates_exact {} [.write .spLow 0x10, .write .sp 0x0400, .count .sp .down]
  have taken (f : Fault) : ¬ Refused (.write ⟨true, 9⟩ 0xABCD) f := by
    rintro ⟨beyond⟩
    exact absurd beyond (by decide)
  have other (v : UInt16) : Update.write ⟨true, 9⟩ 0xABCD ≠ .write .sp v := fun same =>
    absurd (Update.write.inj same).1 (by decide)
  obtain ⟨-, reads, out⟩ := takes _ taken
  refine ⟨(reads _ _).2 ⟨by decide, by decide⟩, (reads _ _).2 ⟨by decide, by decide⟩, out nofun,
    refuses _ _ (.byte rfl), untouched 0 (by decide), ?_⟩
  exact (keeps (.write ⟨true, 9⟩ 0xABCD) nofun other).trans base

end RegisterFile

end Micro8080
