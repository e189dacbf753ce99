import Micro8080.Alu.Basic

/-! # Arithmetic of the unit

The unit computes with bytes and carries.  Here its results are read as numbers: a sum or a
difference is the integer result modulo 256 and its carry says that the integer is out of range, and
a rotation turns a row of bits, of eight or, through the carry, of nine.
-/

namespace Micro8080.Alu

theorem toNat_ofInt (i : Int) : (UInt8.ofInt i).toNat = (i % 256).toNat := by
  have : 0 ≤ i % 256 ∧ i % 256 < 256 := by omega
  simp only [UInt8.ofInt, UInt8.toNat_ofNat']
  omega

/-! ## Sums and differences -/

variable (a : Alu) (c : Bool)

theorem add_acc : (a.add c).acc = .ofInt (a.acc.toNat + a.operand.toNat + c.toNat) := by
  apply UInt8.toNat_inj.1
  rw [toNat_ofInt]
  cases c <;> simp [add, Bool.toUInt8] <;> omega

theorem add_carry :
    (a.add c).carry =
      decide ((a.acc.toNat + a.operand.toNat + c.toNat : Int) < 0 ∨
        255 < (a.acc.toNat + a.operand.toNat + c.toNat : Int)) := by
  apply decide_eq_decide.2
  omega

theorem subtract_acc :
    (a.subtract c).acc = .ofInt (a.acc.toNat - a.operand.toNat - c.toNat) := by
  apply UInt8.toNat_inj.1
  have := a.acc.toNat_lt
  have := a.operand.toNat_lt
  rw [toNat_ofInt]
  cases c <;> simp [subtract, Bool.toUInt8, UInt8.toNat_sub] <;> omega

theorem subtract_carry :
    (a.subtract c).carry =
      decide ((a.acc.toNat - a.operand.toNat - c.toNat : Int) < 0 ∨
        255 < (a.acc.toNat - a.operand.toNat - c.toNat : Int)) := by
  have := a.acc.toNat_lt
  apply decide_eq_decide.2
  omega

theorem sub_beq_zero (x y : UInt8) : (x - y == 0) = (x == y) := by
  have := x.toNat_lt
  have := y.toNat_lt
  rw [Bool.eq_iff_iff, beq_iff_eq, beq_iff_eq, ← UInt8.toNat_inj, ← UInt8.toNat_inj,
    UInt8.toNat_sub]
  simp only [UInt8.reduceToNat]
  omega

/-- A sum of words is a sum of their low bytes, and a sum of their high bytes with the carry. -/
theorem word_add (x y : UInt16) {low high : Int}
    (hl : (Word.low x).toNat + (Word.low y).toNat = low)
    (hh : (Word.high x).toNat + (Word.high y).toNat +
      (decide (low < 0 ∨ 255 < low)).toNat = high) :
    Word.low (x + y) = .ofInt low ∧ Word.high (x + y) = .ofInt high ∧
      decide (65536 ≤ x.toNat + y.toNat) = decide (high < 0 ∨ 255 < high) := by
  have hx := x.toNat_lt
  have hy := y.toNat_lt
  simp only [Word.toNat_low, Word.toNat_high] at hl hh
  have total : high * 256 + low % 256 = x.toNat + y.toNat := by
    by_cases carries : 255 < low
    · simp only [carries, or_true, decide_true, Bool.toNat_true] at hh
      omega
    · have none : ¬ (low < 0 ∨ 255 < low) := by omega
      simp only [none, decide_false, Bool.toNat_false] at hh
      omega
  refine ⟨?_, ?_, ?_⟩
  · apply UInt8.toNat_inj.1
    rw [Word.toNat_low, toNat_ofInt, UInt16.toNat_add]
    omega
  · apply UInt8.toNat_inj.1
    rw [Word.toNat_high, toNat_ofInt, UInt16.toNat_add]
    omega
  · apply decide_eq_decide.2
    omega

/-! ## Bits -/

/-- The parity is even if the ones are even in number. -/
theorem evenParity_eq (v : UInt8) : evenParity v = (v.toBitVec.cpop.toNat % 2 == 0) := by
  have all : ∀ n < 256, let v := UInt8.ofNat n
      evenParity v = (v.toBitVec.cpop.toNat % 2 == 0) := by
    decide +kernel
  simpa using all v.toNat v.toNat_lt

theorem topBit_eq_msb (v : UInt8) : topBit v = v.toBitVec.msb :=
  (BitVec.msb_eq_decide v.toBitVec).symm

theorem topBit_eq (v : UInt8) : topBit v = v.toBitVec.getLsbD 7 := by
  rw [topBit_eq_msb, BitVec.msb_eq_getLsbD_last]

theorem lowBit_eq (v : UInt8) : lowBit v = v.toBitVec.getLsbD 0 := by
  simp only [lowBit, BitVec.getLsbD, Nat.testBit_zero]
  rfl

/-! ## Rotations -/

/-- A shift that takes the carry in at the bottom turns nine bits to the left. -/
theorem rotateLeft_through (v : UInt8) (c : Bool) :
    v <<< 1 ||| c.toUInt8 =
        .ofBitVec (((BitVec.ofBool c ++ v.toBitVec).rotateLeft 1).setWidth 8) ∧
      topBit v = ((BitVec.ofBool c ++ v.toBitVec).rotateLeft 1).msb := by
  -- by table, since shifts of bytes and rotations of vectors share no lemma
  have all : ∀ n < 256, ∀ c : Bool,
      let v := UInt8.ofNat n
      v <<< 1 ||| c.toUInt8 =
          .ofBitVec (((BitVec.ofBool c ++ v.toBitVec).rotateLeft 1).setWidth 8) ∧
        topBit v = ((BitVec.ofBool c ++ v.toBitVec).rotateLeft 1).msb := by
    decide +kernel
  simpa using all v.toNat v.toNat_lt c

theorem rotateRight_through (v : UInt8) (c : Bool) :
    v >>> 1 ||| c.toUInt8 <<< 7 =
        .ofBitVec (((BitVec.ofBool c ++ v.toBitVec).rotateRight 1).setWidth 8) ∧
      lowBit v = ((BitVec.ofBool c ++ v.toBitVec).rotateRight 1).msb := by
  have all : ∀ n < 256, ∀ c : Bool,
      let v := UInt8.ofNat n
      v >>> 1 ||| c.toUInt8 <<< 7 =
          .ofBitVec (((BitVec.ofBool c ++ v.toBitVec).rotateRight 1).setWidth 8) ∧
        lowBit v = ((BitVec.ofBool c ++ v.toBitVec).rotateRight 1).msb := by
    decide +kernel
  simpa using all v.toNat v.toNat_lt c

end Micro8080.Alu
