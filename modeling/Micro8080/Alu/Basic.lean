import Micro8080.Alu.Flags
import Micro8080.Control.Word
import Micro8080.Fault
import Micro8080.Word

/-!
# The arithmetic unit

The unit works on an accumulator and an operand latch.  A shadow register saves the accumulator
while an instruction borrows it, and takes the difference of a comparison.  An operation on the
rising edge leaves its carry aside; the flag register follows on the next falling edge, so that
an operation still sees the flags from before the one that precedes it.
-/

namespace Micro8080

/-- The registers of the arithmetic unit and the latches it drives the bus from. -/
structure Alu where
  acc : UInt8 := 0
  /-- The shadow register. -/
  stored : UInt8 := 0
  operand : UInt8 := 0
  /-- The carry of the last operation, which the flags do not show yet. -/
  carry : Bool := false
  flags : Flags := {}
  /-- The accumulator at the last tock. -/
  out : UInt8 := 0
  /-- The flags at the last tock. -/
  flagsOut : Flags := {}
  deriving DecidableEq, Repr, Inhabited

namespace Alu

/-- The byte has an even number of ones. -/
def evenParity (v : UInt8) : Bool := (List.range 8).countP v.toNat.testBit % 2 == 0

def topBit (v : UInt8) : Bool := decide (128 ≤ v.toNat)

def lowBit (v : UInt8) : Bool := v.toNat % 2 == 1

/-! ## Operations -/

/-- The accumulator plus the operand and a carry. -/
def add (a : Alu) (carryIn : Bool) : Alu :=
  { a with
    acc := a.acc + a.operand + carryIn.toUInt8
    carry := decide (256 ≤ a.acc.toNat + a.operand.toNat + carryIn.toNat) }

/-- The accumulator less the operand and a borrow. -/
def subtract (a : Alu) (borrowIn : Bool) : Alu :=
  { a with
    acc := a.acc - a.operand - borrowIn.toUInt8
    carry := decide (a.acc.toNat < a.operand.toNat + borrowIn.toNat) }

/-- Puts the result of a bitwise operation into the accumulator. -/
def logic (a : Alu) (v : UInt8) : Alu := { a with acc := v, carry := false }

/-- Carries out an operation.  All but the decimal adjustment are supported. -/
def execute (a : Alu) : Operation → Except Fault Alu
  | .add => .ok (a.add false)
  | .adc => .ok (a.add a.flags.carry)
  | .sub => .ok (a.subtract false)
  | .sbb => .ok (a.subtract a.flags.carry)
  | .ana => .ok (a.logic (a.acc &&& a.operand))
  | .xra => .ok (a.logic (a.acc ^^^ a.operand))
  | .ora => .ok (a.logic (a.acc ||| a.operand))
  | .cmp =>
    -- the accumulator stays, and the falling edge looks for the difference in the shadow register
    let difference := a.acc - a.operand
    .ok { a with stored := difference, carry := topBit difference }
  | .rlc => .ok { a with acc := a.acc <<< 1 ||| a.acc >>> 7, carry := topBit a.acc }
  | .rrc => .ok { a with acc := a.acc >>> 1 ||| a.acc <<< 7, carry := lowBit a.acc }
  | .ral => .ok { a with acc := a.acc <<< 1 ||| a.flags.carry.toUInt8, carry := topBit a.acc }
  | .rar =>
    .ok { a with acc := a.acc >>> 1 ||| a.flags.carry.toUInt8 <<< 7, carry := lowBit a.acc }
  | .daa => .error (.unsupportedOperation .daa)
  | .cma => .ok { a with acc := ~~~a.acc }
  | .stc => .ok { a with carry := true }
  | .cmc => .ok { a with carry := !a.flags.carry }
  | .inr => .ok { a with acc := a.acc + 1 }
  | .dcr => .ok { a with acc := a.acc - 1 }

/-- The flags after an update from what the last operation left. -/
def updatedFlags (a : Alu) : FlagsUpdate → Flags
  | .all =>
    { zero := a.acc == 0, carry := a.carry, parity := evenParity a.acc, sign := topBit a.acc }
  | .compare => { a.flags with zero := a.stored == 0, carry := a.carry }
  | .preserveCarry =>
    { a.flags with zero := a.acc == 0, parity := evenParity a.acc, sign := topBit a.acc }
  | .carryOnly => { a.flags with carry := a.carry }
  | .none => a.flags

/-! ## Clock edges -/

/-- The operation that a control word selects. -/
def selected (w : ControlWord) : Except Fault Operation :=
  match Operation.ofCode? w.opCode.toNat with
  | some op => .ok op
  | none => .error (.unknownOperation w.opCode.toNat)

/-- The first half of the rising edge: the shadow register and the operand latch. -/
def capture (a : Alu) (w : ControlWord) (bus : UInt16) : Alu :=
  { a with
    stored := if w.saveAcc then a.acc else a.stored
    operand := if w.loadOperand then Word.low bus else a.operand }

/-- The second half of the rising edge: the accumulator is loaded, restored or operated on. -/
def operate (a : Alu) (w : ControlWord) (bus : UInt16) : Except Fault Alu :=
  if w.loadAcc then .ok { a with acc := Word.low bus }
  else if w.restoreAcc then .ok { a with acc := a.stored }
  else if w.execute then selected w >>= a.execute
  else .ok a

/-- The rising edge.  Signals that contend for the accumulator stop it altogether; an operation
that cannot be carried out stops only its second half. -/
def rise (a : Alu) (w : ControlWord) (bus : UInt16) : Alu × Option Fault :=
  if w.accWriters > 1 then (a, some .accumulatorConflict)
  else
    let captured := a.capture w bus
    match captured.operate w bus with
    | .ok operated => (operated, none)
    | .error fault => (captured, some fault)

/-- The falling edge: the flags are loaded from the bus or follow the last operation. -/
def fall (a : Alu) (w : ControlWord) (bus : UInt16) : Except Fault Alu :=
  if w.loadFlags then .ok { a with flags := .ofByte (Word.low bus) }
  else if w.execute then
    (selected w).map fun op => { a with flags := a.updatedFlags op.flagsUpdate }
  else .ok a

/-- The settling phase: accumulator and flags go to the output latches. -/
def settle (a : Alu) : Alu := { a with out := a.acc, flagsOut := a.flags }

end Alu

end Micro8080
