import Mathlib.Data.Nat.Digits.Lemmas
import Mathlib.Tactic.LinearCombination
import Micro8080.Control.Microcode
import Micro8080.Proofs.Alu.Arithmetic
import Micro8080.Proofs.Datapath.Basic

/-! # Arithmetic on long numbers

The unit works on bytes, and a program that adds or subtracts longer numbers does so place by place,
from the lowest up.  The lowest place begins without a carry, and every other one takes in the carry
flag that the place below it left (`Alu.places`).

What ties the places together is an equation: the bytes so far and the carry flag above them are
the sum, or the difference, of the places so far (`Alu.places_eq`).  A carry goes through the unit
twice, out of the operation on the rising edge and into the flags on the falling one, and has to
outlast the two loads of the next place, which leave the flags alone.
-/

namespace Micro8080

/-! ## Numbers in bytes -/

/-- The number that bytes stand for, the lowest first. -/
def number (bytes : List UInt8) : Nat := Nat.ofDigits 256 (bytes.map UInt8.toNat)

/-- The lowest `n` bytes of a number, the lowest first. -/
def bytesOf (n x : Nat) : List UInt8 := (List.range n).map fun i => UInt8.ofNat (x / 256 ^ i)

theorem number_cons (v : UInt8) (bytes : List UInt8) :
    number (v :: bytes) = v.toNat + 256 * number bytes := by
  simp only [number, List.map_cons, Nat.ofDigits_cons]

theorem number_lt (bytes : List UInt8) : number bytes < 256 ^ bytes.length := by
  have digits : ∀ d ∈ bytes.map UInt8.toNat, d < 256 := by
    intro d mem
    obtain ⟨v, -, rfl⟩ := List.mem_map.1 mem
    exact v.toNat_lt
  have small := Nat.ofDigits_lt_base_pow_length (by decide) digits
  rwa [List.length_map] at small

theorem bytesOf_succ (n x : Nat) : bytesOf (n + 1) x = UInt8.ofNat x :: bytesOf n (x / 256) := by
  simp only [bytesOf, List.range_succ_eq_map, List.map_cons, List.map_map, pow_zero, Nat.div_one]
  refine congrArg _ (List.map_congr_left fun i _ => ?_)
  simp only [Function.comp_apply, pow_succ', Nat.div_div_eq_div_mul]

theorem bytesOf_number (bytes : List UInt8) : bytesOf bytes.length (number bytes) = bytes := by
  induction bytes with
  | nil => rfl
  | cons v bytes ih =>
    have := v.toNat_lt
    have low : UInt8.ofNat (v.toNat + 256 * number bytes) = v := by
      apply UInt8.toNat_inj.1
      rw [UInt8.toNat_ofNat']
      omega
    have high : (v.toNat + 256 * number bytes) / 256 = number bytes := by omega
    rw [List.length_cons, bytesOf_succ, number_cons, low, high, ih]

namespace Alu

open ControlWord

/-! ## Single places -/

/-- A rising and a falling edge under the same word and with the same value on the bus. -/
def cycle (a : Alu) (w : ControlWord) (bus : UInt16) : Except Fault Alu :=
  match a.rise w bus with
  | (risen, none) => risen.fall w bus
  | (_, some fault) => .error fault

/-- The bytes of two numbers at one place, and what is on the bus while the unit works on them. -/
structure Place where
  upper : UInt8
  lower : UInt8
  bus : UInt16 := 0

/-- The bytes of a place are loaded one after the other, and an operation is carried out on
them. -/
def work (a : Alu) (op : Operation) (p : Place) : Except Fault Alu := do
  let a ← a.cycle (idle.loading .accumulator) p.upper.toUInt16
  let a ← a.cycle (idle.loading .operand) p.lower.toUInt16
  a.cycle (idle.executing op) p.bus

variable {a b : Alu} {op next : Operation} {sign : Int} {c : Bool}

theorem cycle_executing (executes : a.execute op = .ok b) (bus : UInt16) :
    a.cycle (idle.executing op) bus = .ok { b with flags := b.updatedFlags op.flagsUpdate } := by
  have select : selected (idle.executing op) = .ok op := by
    simp only [selected, executing, Operation.ofCode?_code]
  have operate : a.operate (idle.executing op) bus = .ok b := by
    rw [← executes]
    show selected (idle.executing op) >>= a.execute = _
    rw [select]
    rfl
  have alone : ¬ (idle.executing op).accWriters > 1 := Nat.lt_irrefl 1
  have still : a.capture (idle.executing op) bus = a := rfl
  have rise : a.rise (idle.executing op) bus = (b, none) := by
    simp only [Alu.rise, if_neg alone, still, operate]
  have fall : b.fall (idle.executing op) bus =
      (selected (idle.executing op)).map fun op =>
        { b with flags := b.updatedFlags op.flagsUpdate } := rfl
  simp only [cycle, rise, fall, select]
  rfl

/-- Under these flags the operation adds its operand and the carry `c` to the accumulator, or, with
a negative sign, subtracts them. -/
inductive Adds (f : Flags) : Operation → Int → Bool → Prop where
  | add : Adds f .add 1 false
  | adc : Adds f .adc 1 f.carry
  | sub : Adds f .sub (-1) false
  | sbb : Adds f .sbb (-1) f.carry

theorem Adds.sign_eq {f : Flags} (h : Adds f op sign c) : sign = 1 ∨ sign = -1 := by
  cases h <;> simp

theorem add_value (a : Alu) (c : Bool) :
    (a.add c).acc.toNat + 256 * (a.add c).carry.toNat =
      a.acc.toNat + a.operand.toNat + c.toNat := by
  have := a.acc.toNat_lt
  have := a.operand.toNat_lt
  have := c.toNat_lt
  rw [add_acc, toNat_ofInt, add]
  by_cases carries : 256 ≤ a.acc.toNat + a.operand.toNat + c.toNat
  · simp only [carries, decide_true, Bool.toNat_true]
    omega
  · simp only [carries, decide_false, Bool.toNat_false]
    omega

theorem subtract_value (a : Alu) (c : Bool) :
    (a.subtract c).acc.toNat + (a.operand.toNat + c.toNat) =
      a.acc.toNat + 256 * (a.subtract c).carry.toNat := by
  have := a.acc.toNat_lt
  have := a.operand.toNat_lt
  have := c.toNat_lt
  rw [subtract_acc, toNat_ofInt, subtract]
  by_cases borrows : a.acc.toNat < a.operand.toNat + c.toNat
  · simp only [borrows, decide_true, Bool.toNat_true]
    omega
  · simp only [borrows, decide_false, Bool.toNat_false]
    omega

theorem Adds.execute (h : Adds a.flags op sign c) :
    ∃ b, a.execute op = .ok b ∧ op.flagsUpdate = .all ∧
      (b.acc.toNat : Int) + sign * (256 * b.carry.toNat) =
        a.acc.toNat + sign * (a.operand.toNat + c.toNat) := by
  cases h with
  | add =>
    have value := a.add_value false
    exact ⟨_, rfl, rfl, by omega⟩
  | adc =>
    have value := a.add_value a.flags.carry
    exact ⟨_, rfl, rfl, by omega⟩
  | sub =>
    have value := a.subtract_value false
    exact ⟨_, rfl, rfl, by omega⟩
  | sbb =>
    have value := a.subtract_value a.flags.carry
    exact ⟨_, rfl, rfl, by omega⟩

/-- What a place leaves in the accumulator and in the carry flag is its sum or difference. -/
theorem Adds.work (h : Adds a.flags op sign c) (p : Place) :
    ∃ b, a.work op p = .ok b ∧
      (b.acc.toNat : Int) + sign * (256 * b.flags.carry.toNat) =
        p.upper.toNat + sign * (p.lower.toNat + c.toNat) := by
  let loaded : Alu := { a with acc := p.upper, operand := p.lower }
  have loads : a.work op p = loaded.cycle (idle.executing op) p.bus := by
    have acc : a.cycle (idle.loading .accumulator) p.upper.toUInt16 =
        .ok { a with acc := Word.low p.upper.toUInt16 } := rfl
    have operand (b : Alu) : b.cycle (idle.loading .operand) p.lower.toUInt16 =
        .ok { b with operand := Word.low p.lower.toUInt16 } := rfl
    simp only [Alu.work, acc, operand, Word.low_toUInt16]
    rfl
  obtain ⟨b, executes, all, value⟩ := Adds.execute (a := loaded) h
  refine ⟨_, loads.trans (cycle_executing executes p.bus), ?_⟩
  rw [all]
  exact value

/-! ## Place by place -/

/-- One operation on the lowest place and another one on all the others.  The outcome is the
accumulator after each place, and the unit at the end. -/
def places (a : Alu) (first next : Operation) : List Place → Except Fault (List UInt8 × Alu)
  | [] => .ok ([], a)
  | p :: rest => do
    let b ← a.work first p
    let (accs, last) ← places b next next rest
    return (b.acc :: accs, last)

/-- The first one of the numbers that places hold. -/
def upper (ps : List Place) : Nat := number (ps.map Place.upper)

def lower (ps : List Place) : Nat := number (ps.map Place.lower)

theorem upper_lt (ps : List Place) : upper ps < 256 ^ ps.length := by
  have small := number_lt (ps.map Place.upper)
  rwa [List.length_map] at small

/-- The bytes and the carry flag above them are the sum or the difference of the two numbers and
the carry that the lowest place took in. -/
theorem places_eq (h : Adds a.flags op sign c) (goes : ∀ f : Flags, Adds f next sign f.carry)
    {ps : List Place} (start : ps = [] → c = a.flags.carry) :
    ∃ accs last, a.places op next ps = .ok (accs, last) ∧ accs.length = ps.length ∧
      (number accs : Int) + sign * (256 ^ ps.length * last.flags.carry.toNat) =
        upper ps + sign * (lower ps + c.toNat) := by
  -- on the places; above the lowest one the carry is that of the flags
  induction ps generalizing a op c with
  | nil =>
    refine ⟨[], a, rfl, rfl, ?_⟩
    rw [start rfl]
    simp [upper, lower, number]
  | cons p rest ih =>
    obtain ⟨b, lowest, value⟩ := h.work p
    obtain ⟨accs, last, others, length, rises⟩ := ih (goes b.flags) fun _ => rfl
    refine ⟨b.acc :: accs, last, ?_, by rw [List.length_cons, List.length_cons, length], ?_⟩
    · simp only [places, bind, Except.bind, pure, Except.pure, lowest, others]
    · have first : upper (p :: rest) = p.upper.toNat + 256 * upper rest := number_cons _ _
      have second : lower (p :: rest) = p.lower.toNat + 256 * lower rest := number_cons _ _
      rw [number_cons, first, second, List.length_cons, pow_succ]
      push_cast
      linear_combination value + 256 * rises

/-- The accumulators are the bytes of the sum or of the difference, and the carry flag tells whether
there are too few of them for it, or none at all. -/
theorem places_bytes (h : Adds a.flags op sign false)
    (goes : ∀ f : Flags, Adds f next sign f.carry) {ps : List Place} (nonempty : ps ≠ []) :
    ∃ last, a.places op next ps =
        .ok (bytesOf ps.length ((upper ps + sign * lower ps) % 256 ^ ps.length).toNat, last) ∧
      (last.flags.carry = true ↔
        (upper ps + sign * lower ps : Int) < 0 ∨ 256 ^ ps.length ≤ upper ps + sign * lower ps) := by
  obtain ⟨accs, last, run, length, value⟩ :=
    places_eq h goes fun none => absurd none nonempty
  have bytes : bytesOf ps.length (number accs) = accs := length ▸ bytesOf_number accs
  have small : (number accs : Int) < 256 ^ ps.length := by exact_mod_cast length ▸ number_lt accs
  simp only [Bool.toNat_false, Nat.cast_zero, add_zero] at value
  generalize (upper ps + sign * lower ps : Int) = total at value ⊢
  generalize hsize : (256 : Int) ^ ps.length = size at value small ⊢
  refine ⟨last, ?_, ?_⟩
  · have residue : total % size = number accs := by
      rw [← value, mul_left_comm, Int.add_mul_emod_self_left]
      exact Int.emod_eq_of_lt (Int.natCast_nonneg _) small
    rw [run, residue, Int.toNat_natCast, bytes]
  · -- a carry moves the total out of the range of the bytes, upwards or downwards
    cases carry : last.flags.carry with
    | false =>
      simp only [carry, Bool.toNat_false, Nat.cast_zero, mul_zero, add_zero] at value
      simp only [Bool.false_eq_true, false_iff]
      omega
    | true =>
      simp only [carry, Bool.toNat_true, Nat.cast_one, mul_one] at value
      simp only [true_iff]
      obtain rfl | rfl := h.sign_eq <;> omega

/-- Additions and subtractions are right for numbers of any length, whatever the unit holds at
first. -/
theorem long_arithmetic (a : Alu) {ps : List Place} (nonempty : ps ≠ []) :
    (∃ last, a.places .add .adc ps =
        .ok (bytesOf ps.length ((upper ps + lower ps) % 256 ^ ps.length), last) ∧
      (last.flags.carry = true ↔ 256 ^ ps.length ≤ upper ps + lower ps)) ∧
    ∃ last, a.places .sub .sbb ps =
        .ok (bytesOf ps.length ((upper ps - lower ps : Int) % 256 ^ ps.length).toNat, last) ∧
      (last.flags.carry = true ↔ upper ps < lower ps) := by
  constructor
  · obtain ⟨last, run, carry⟩ := places_bytes (a := a) .add (fun _ => .adc) nonempty
    refine ⟨last, ?_, ?_⟩
    · rw [run]
      have sum : (upper ps + 1 * lower ps : Int) % 256 ^ ps.length =
          ((upper ps + lower ps) % 256 ^ ps.length : Nat) := by
        push_cast
        rw [one_mul]
      rw [sum, Int.toNat_natCast]
    · rw [carry, one_mul]
      zify
      omega
  · obtain ⟨last, run, carry⟩ := places_bytes (a := a) .sub (fun _ => .sbb) nonempty
    have difference : (upper ps + -1 * lower ps : Int) = upper ps - lower ps := by ring
    rw [difference] at run carry
    refine ⟨last, run, ?_⟩
    have small : (upper ps : Int) < 256 ^ ps.length := by exact_mod_cast upper_lt ps
    rw [carry]
    omega

/-- A unit that starts with its carry flag set, on the numbers 511 and 65281. -/
theorem long_arithmetic_of_two :
    (∃ last, ({ flags := { carry := true } } : Alu).places .add .adc [⟨0xFF, 1, 0⟩, ⟨1, 0xFF, 0⟩] =
        .ok ([0, 1], last) ∧ last.flags.carry = true) ∧
    ∃ last, ({ flags := { carry := true } } : Alu).places .sub .sbb [⟨0xFF, 1, 0⟩, ⟨1, 0xFF, 0⟩] =
        .ok ([0xFE, 2], last) ∧ last.flags.carry = true := by
  obtain ⟨⟨sum, added, carry⟩, difference, taken, borrow⟩ :=
    long_arithmetic { flags := { carry := true } }
      (List.cons_ne_nil (⟨0xFF, 1, 0⟩ : Place) [⟨1, 0xFF, 0⟩])
  exact ⟨⟨sum, added, carry.2 (by decide)⟩, difference, taken, borrow.2 (by decide)⟩

end Alu

end Micro8080
