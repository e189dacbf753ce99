import Mathlib.Order.Bounds.Basic
import Micro8080.Memory

/-! # Texts in memory

Memory repeats every 2048 addresses, so that the 2048 cells from any address on are all of it, each
one once (`mem_bytesFrom_iff`).  A search for a terminator goes through these cells in order: it
finds one if memory has one anywhere, and gives the cells before the first (`readUntil_eq`), which
is the one at the least distance (`readUntil_least`).
-/

namespace Micro8080.Memory

variable {m : Memory} {a : UInt16} {t : UInt8}

/-- The `n` cells from an address on. -/
def bytesFrom (m : Memory) (a : UInt16) (n : Nat) : List UInt8 :=
  (List.range n).map fun i => m.read (a + .ofNat i)

theorem bytesFrom_succ (m : Memory) (a : UInt16) (n : Nat) :
    m.bytesFrom a (n + 1) = m.read a :: m.bytesFrom (a + 1) n := by
  have next (i : Nat) : a + UInt16.ofNat (i + 1) = a + 1 + UInt16.ofNat i := by
    rw [UInt16.ofNat_add, UInt16.add_comm (.ofNat i), ← UInt16.add_assoc]
    rfl
  simp only [bytesFrom, List.range_succ_eq_map, List.map_cons, List.map_map, Function.comp_def, next]
  rw [show a + UInt16.ofNat 0 = a from UInt16.add_zero a]

theorem readUntilWithin_eq (m : Memory) (t : UInt8) (n : Nat) (a : UInt16) :
    m.readUntilWithin t n a =
      if t ∈ m.bytesFrom a n then some ((m.bytesFrom a n).takeWhile (· ≠ t)) else none := by
  induction n generalizing a with
  | zero => rfl
  | succ n ih =>
    rw [readUntilWithin, bytesFrom_succ, ih]
    by_cases here : m.read a = t
    · simp [here]
    · have there : t ≠ m.read a := fun e => here e.symm
      by_cases later : t ∈ m.bytesFrom (a + 1) n <;> simp [here, there, later]

/-- Wherever it begins, one pass goes through all cells. -/
theorem mem_bytesFrom_iff : t ∈ m.bytesFrom a capacity ↔ t ∈ m.bytes := by
  simp only [bytesFrom, List.mem_map, List.mem_range, Vector.mem_iff_getElem]
  constructor
  · rintro ⟨i, -, rfl⟩
    exact ⟨_, Nat.mod_lt _ (by decide), rfl⟩
  · rintro ⟨j, lt, rfl⟩
    have far : (j + 2048 - a.toNat % 2048) % 2048 < 2048 := Nat.mod_lt _ (by decide)
    refine ⟨(j + 2048 - a.toNat % 2048) % 2048, far, ?_⟩
    have index : (a + UInt16.ofNat ((j + 2048 - a.toNat % 2048) % 2048)).toNat % 2048 = j := by
      simp only [UInt16.toNat_add, UInt16.toNat_ofNat']
      omega
    simp only [read, index]

/-- The bytes up to the first terminator, if there is one anywhere in memory. -/
theorem readUntil_eq (m : Memory) (a : UInt16) (t : UInt8) :
    m.readUntil a t =
      if t ∈ m.bytes then some ((m.bytesFrom a capacity).takeWhile (· ≠ t)) else none := by
  simp only [readUntil, readUntilWithin_eq, mem_bytesFrom_iff]

/-! ## Distances -/

/-- The cell at a distance from an address, counted past the ends of memory and of the words. -/
def cellAfter (m : Memory) (a : UInt16) (i : Nat) : UInt8 := m.bytes[(a.toNat + i) % 2048]

theorem read_add (m : Memory) (a : UInt16) (i : Nat) : m.read (a + .ofNat i) = m.cellAfter a i := by
  -- memory repeats more often than the words do
  have index : (a + UInt16.ofNat i).toNat % 2048 = (a.toNat + i) % 2048 := by
    simp only [UInt16.toNat_add, UInt16.toNat_ofNat']
    omega
  simp only [read, cellAfter, index]

theorem length_bytesFrom (m : Memory) (a : UInt16) (n : Nat) : (m.bytesFrom a n).length = n := by
  rw [bytesFrom, List.length_map, List.length_range]

theorem getElem_bytesFrom {i n : Nat} (lt : i < (m.bytesFrom a n).length) :
    (m.bytesFrom a n)[i] = m.cellAfter a i := by
  simp only [bytesFrom, List.getElem_map, List.getElem_range, read_add]

theorem take_bytesFrom {i n : Nat} (le : i ≤ n) : (m.bytesFrom a n).take i = m.bytesFrom a i := by
  rw [bytesFrom, bytesFrom, ← List.map_take, List.take_range, Nat.min_eq_left le]

theorem exists_least (there : t ∈ m.bytes) :
    ∃ n ≤ 2047, IsLeast {i | m.cellAfter a i = t} n ∧ m.readUntil a t = some (m.bytesFrom a n) := by
  have found : ∃ v ∈ m.bytesFrom a capacity, (v == t) = true :=
    ⟨t, mem_bytesFrom_iff.2 there, beq_self_eq_true t⟩
  have within := List.findIdx_lt_length_of_exists found
  have hit : m.cellAfter a ((m.bytesFrom a capacity).findIdx (· == t)) = t := by
    rw [← getElem_bytesFrom within]
    exact eq_of_beq (List.findIdx_getElem (w := within))
  have misses (i : Nat) (lt : i < (m.bytesFrom a capacity).findIdx (· == t)) :
      m.cellAfter a i ≠ t := by
    have miss := List.not_of_lt_findIdx lt
    rw [getElem_bytesFrom] at miss
    exact ne_of_beq_false miss
  have text : (m.bytesFrom a capacity).takeWhile (· ≠ t) =
      (m.bytesFrom a capacity).take ((m.bytesFrom a capacity).findIdx (· == t)) := by
    rw [List.takeWhile_eq_take_findIdx_not]
    simp [beq_eq_decide]
  rw [length_bytesFrom] at within
  refine ⟨_, Nat.le_of_lt_succ within, ⟨hit, fun i here => ?_⟩, ?_⟩
  · by_contra beyond
    exact misses i (Nat.lt_of_not_le beyond) here
  · rw [readUntil_eq, if_pos there, text, take_bytesFrom (Nat.le_of_lt within)]

/-- A search succeeds if and only if memory holds the terminator at all.  It gives the cells before
the terminator that is nearest, at most 2047 of them, across the ends of memory and of the words. -/
theorem readUntil_least (m : Memory) (a : UInt16) (t : UInt8) :
    ((m.readUntil a t).isSome = true ↔ t ∈ m.bytes) ∧
    (m.readUntil a t = none ↔ t ∉ m.bytes) ∧
    ∀ text, m.readUntil a t = some text ↔
      text.length ≤ 2047 ∧
      IsLeast {n | m.bytes[(a.toNat + n) % 2048] = t} text.length ∧
      ∀ i (_ : i < text.length), text[i] = m.bytes[(a.toNat + i) % 2048] := by
  by_cases there : t ∈ m.bytes
  · obtain ⟨n, le, least, found⟩ := m.exists_least (a := a) there
    refine ⟨by simp [found, there], by simp [found, there], fun text => ?_⟩
    rw [found, Option.some_inj]
    constructor
    · rintro rfl
      have length : n = (m.bytesFrom a n).length := (length_bytesFrom m a n).symm
      exact ⟨length ▸ le, length ▸ least, fun i lt => getElem_bytesFrom lt⟩
    · rintro ⟨-, least', cells⟩
      have length : text.length = n := least'.unique least
      refine List.ext_getElem ?_ fun i lt lt' => ?_
      · rw [length_bytesFrom, length]
      · rw [getElem_bytesFrom lt, cells i lt']
        rfl
  · have missing : m.readUntil a t = none := by rw [readUntil_eq, if_neg there]
    refine ⟨by simp [missing, there], by simp [missing, there], fun text => ?_⟩
    rw [missing]
    refine iff_of_false nofun fun ⟨_, least, _⟩ => there ?_
    have here : m.bytes[(a.toNat + text.length) % 2048] = t := least.1
    exact here ▸ Vector.getElem_mem _

/-- The text before a dollar sign at address 1, from the last address on. -/
theorem readUntil_least_across :
    (({} : Memory).write 1 0x24).readUntil 0xFFFF 0x24 = some [0, 0] := by
  have cell (i : Nat) (lt : i < 2048) :
      (({} : Memory).write 1 0x24).bytes[i] = if 1 = i then 0x24 else 0 := by
    simp only [write, Vector.getElem_set, Vector.getElem_replicate]
    rfl
  obtain ⟨-, -, found⟩ := readUntil_least (({} : Memory).write 1 0x24) 0xFFFF 0x24
  refine (found [0, 0]).2 ⟨by decide, ⟨?_, fun n here => ?_⟩, fun i lt => ?_⟩
  · exact (cell _ _).trans (if_pos rfl)
  · by_contra nearer
    have before : n = 0 ∨ n = 1 := by
      simp only [List.length_cons, List.length_nil] at nearer
      omega
    have there := (cell _ (Nat.mod_lt _ (by decide))).symm.trans here
    rcases before with rfl | rfl <;> exact absurd there (by decide)
  · have before : i = 0 ∨ i = 1 := by
      simp only [List.length_cons, List.length_nil] at lt
      omega
    rcases before with rfl | rfl <;> exact ((cell _ _).trans (if_neg (by decide))).symm

end Micro8080.Memory
