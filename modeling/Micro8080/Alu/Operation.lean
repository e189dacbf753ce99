/-!
# Operations of the arithmetic unit

The control word selects an operation by a five-bit code.  Codes 0 to 17 name operations and
the rest name none; `Operation.ofCode?` is the decoder, with `ofCode?_code` as its law.  An
instruction names an operation more tersely, by a three-bit field that stands either for a
two-operand operation or for one on the accumulator alone.
-/

namespace Micro8080

/-- What the arithmetic unit can be told to do with its accumulator. -/
inductive Operation where
  | add | adc | sub | sbb | ana | xra | ora | cmp
  | rlc | rrc | ral | rar | daa | cma | stc | cmc
  | inr | dcr
  deriving DecidableEq, Repr, Inhabited

/-- Which flags the falling edge after an operation writes. -/
inductive FlagsUpdate where
  /-- Sign, parity, carry and zero, from the accumulator. -/
  | all
  /-- Carry and zero, the latter from the shadow register. -/
  | compare
  /-- Sign, parity and zero from the accumulator; carry stays. -/
  | preserveCarry
  | carryOnly
  | none
  deriving DecidableEq, Repr

namespace Operation

/-- Every operation, in the order of the codes. -/
def all : List Operation :=
  [add, adc, sub, sbb, ana, xra, ora, cmp, rlc, rrc, ral, rar, daa, cma, stc, cmc, inr, dcr]

/-- The five-bit code that selects an operation. -/
def code : Operation → BitVec 5
  | add => 0 | adc => 1 | sub => 2 | sbb => 3 | ana => 4 | xra => 5 | ora => 6 | cmp => 7
  | rlc => 8 | rrc => 9 | ral => 10 | rar => 11 | daa => 12 | cma => 13 | stc => 14 | cmc => 15
  | inr => 16 | dcr => 17

/-- The operation a code selects. -/
def ofCode? (n : Nat) : Option Operation := all[n]?

/-- The two-operand operation of a three-bit field. -/
def ofArithmeticField (n : Nat) : Operation :=
  match n % 8 with
  | 0 => add | 1 => adc | 2 => sub | 3 => sbb | 4 => ana | 5 => xra | 6 => ora | _ => cmp

/-- The operation on the accumulator alone of a three-bit field. -/
def ofAccumulatorField (n : Nat) : Operation :=
  match n % 8 with
  | 0 => rlc | 1 => rrc | 2 => ral | 3 => rar | 4 => daa | 5 => cma | 6 => stc | _ => cmc

/-- The flags that the falling edge after the operation writes. -/
def flagsUpdate : Operation → FlagsUpdate
  | add | adc | sub | sbb | ana | xra | ora => .all
  | cmp => .compare
  | inr | dcr => .preserveCarry
  | rlc | rrc | ral | rar | stc | cmc => .carryOnly
  | daa | cma => .none

/-- The operation's name in capitals, as assembly text writes it. -/
def mnemonic : Operation → String
  | add => "ADD" | adc => "ADC" | sub => "SUB" | sbb => "SBB"
  | ana => "ANA" | xra => "XRA" | ora => "ORA" | cmp => "CMP"
  | rlc => "RLC" | rrc => "RRC" | ral => "RAL" | rar => "RAR"
  | daa => "DAA" | cma => "CMA" | stc => "STC" | cmc => "CMC"
  | inr => "INR" | dcr => "DCR"

/-- The mnemonic of the form whose second operand follows the opcode. -/
def immediateMnemonic : Operation → String
  | add => "ADI" | adc => "ACI" | sub => "SUI" | sbb => "SBI"
  | ana => "ANI" | xra => "XRI" | ora => "ORI" | _ => "CPI"

theorem ofCode?_code (op : Operation) : ofCode? op.code.toNat = some op := by
  cases op <;> rfl

theorem code_of_ofCode? {n : Nat} {op : Operation} (h : ofCode? n = some op) :
    op.code.toNat = n := by
  have code_at : ∀ i : Fin all.length, all[i].code.toNat = i := by decide
  obtain ⟨hn, rfl⟩ := List.getElem?_eq_some_iff.1 h
  exact code_at ⟨n, hn⟩

end Operation

end Micro8080
