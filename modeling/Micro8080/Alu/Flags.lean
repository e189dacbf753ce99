/-!
# Flags and branch conditions

The flag register holds four bits.  A branch tests one of them against an expected value; the
three-bit condition field of an opcode gives the flag in its upper two bits and the value in its
lowest.
-/

namespace Micro8080

structure Flags where
  zero : Bool := false
  carry : Bool := false
  /-- Set when the accumulator has an even number of ones. -/
  parity : Bool := false
  sign : Bool := false
  deriving DecidableEq, Repr, Inhabited

namespace Flags

/-- The flags as a byte: zero is bit 0, carry bit 1, parity bit 2, sign bit 3. -/
def toByte (f : Flags) : UInt8 :=
  UInt8.ofNat (f.zero.toNat + 2 * f.carry.toNat + 4 * f.parity.toNat + 8 * f.sign.toNat)

/-- The flags in the lowest four bits of a byte. -/
def ofByte (v : UInt8) : Flags where
  zero := v.toNat.testBit 0
  carry := v.toNat.testBit 1
  parity := v.toNat.testBit 2
  sign := v.toNat.testBit 3

theorem ofByte_toByte (f : Flags) : ofByte f.toByte = f := by
  obtain ⟨z, c, p, s⟩ := f
  revert z c p s
  decide

end Flags

/-- One bit of the flag register. -/
inductive Flag where
  | zero | carry | parity | sign
  deriving DecidableEq, Repr

def Flag.index : Flag → Nat
  | .zero => 0 | .carry => 1 | .parity => 2 | .sign => 3

def Flags.get (f : Flags) : Flag → Bool
  | .zero => f.zero
  | .carry => f.carry
  | .parity => f.parity
  | .sign => f.sign

/-- What a conditional branch waits for. -/
structure Condition where
  flag : Flag
  expected : Bool
  deriving DecidableEq, Repr

namespace Condition

/-- The condition of a three-bit field. -/
def ofField (n : Nat) : Condition where
  flag := match n / 2 % 4 with
    | 0 => .zero
    | 1 => .carry
    | 2 => .parity
    | _ => .sign
  expected := n % 2 == 1

def holds (k : Condition) (f : Flags) : Bool := f.get k.flag == k.expected

/-- The letters that name a condition in a mnemonic. -/
def name (k : Condition) : String :=
  match k.flag, k.expected with
  | .zero, false => "NZ" | .zero, true => "Z"
  | .carry, false => "NC" | .carry, true => "C"
  | .parity, false => "PO" | .parity, true => "PE"
  | .sign, false => "P" | .sign, true => "M"

end Condition

end Micro8080
