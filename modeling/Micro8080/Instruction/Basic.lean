import Micro8080.Alu.Flags
import Micro8080.Alu.Operation
import Micro8080.Register.Field

/-!
# Instructions

An opcode is three octal digits: a quadrant, a destination and a source.  `Instruction.decode`
reads them quadrant by quadrant.  Not every opcode of the instruction set has microcode here;
those that have none decode to `unimplemented`.
-/

namespace Micro8080

/-- What an opcode tells the machine to do. -/
inductive Instruction where
  | halt
  /-- Copy the byte at HL into a register. -/
  | moveFromMemory (target : Register)
  /-- Copy a register into the byte at HL. -/
  | moveToMemory (source : Register)
  | move (target source : Register)
  /-- Copy the next byte into the byte at HL. -/
  | moveImmediateToMemory
  | moveImmediate (target : Register)
  /-- Add one to the byte at HL, or take one from it. -/
  | stepMemory (decrement : Bool)
  /-- Add one to a register, or take one from it. -/
  | stepRegister (target : Register) (decrement : Bool)
  /-- Add one to a pair, or take one from it. -/
  | stepPair (target : RegisterPair) (decrement : Bool)
  | loadPairImmediate (target : RegisterPair)
  /-- Operate on the accumulator and the byte at HL. -/
  | operateMemory (op : Operation)
  | operateRegister (op : Operation) (source : Register)
  | operateImmediate (op : Operation)
  | operateAccumulator (op : Operation)
  /-- Go on at the next word. -/
  | jump (condition : Option Condition)
  /-- Push the address of the next instruction and go on at the next word. -/
  | call (condition : Option Condition)
  /-- Go on at the word popped from the stack. -/
  | ret (condition : Option Condition)
  /-- Show the accumulator. -/
  | output
  | exchange
  | exchangeStackTop
  /-- Go on at HL. -/
  | jumpHl
  /-- Copy the byte at the next word into the accumulator, or the accumulator there. -/
  | direct (load : Bool)
  | push (source : StackPair)
  | pop (target : StackPair)
  | addPair (source : RegisterPair)
  /-- Copy the byte at a pair into the accumulator, or the accumulator there. -/
  | indirect (pair : RegisterPair) (load : Bool)
  /-- An opcode without microcode. -/
  | unimplemented (opcode : UInt8)
  deriving DecidableEq, Repr

namespace Instruction

/-! ## Decoding -/

/-- The data instructions: immediate loads, steps of one, and loads and stores. -/
def decodeData (opcode : UInt8) (y z : Nat) : Instruction :=
  match z with
  | 1 =>
    if y % 2 == 0 then .loadPairImmediate (.ofField (y / 2)) else .addPair (.ofField (y / 2))
  | 2 =>
    match y with
    | 0 | 1 | 2 | 3 => .indirect (.ofField (y / 2)) (y % 2 == 1)
    | 6 => .direct false
    | 7 => .direct true
    | _ => .unimplemented opcode
  | 3 => .stepPair (.ofField (y / 2)) (y % 2 == 1)
  | 4 | 5 => if y = 6 then .stepMemory (z == 5) else .stepRegister (.ofField y) (z == 5)
  | 6 => if y = 6 then .moveImmediateToMemory else .moveImmediate (.ofField y)
  | 7 => .operateAccumulator (.ofAccumulatorField y)
  | _ => .unimplemented opcode

/-- The moves between registers and memory, and the halt in place of a move from memory to
memory. -/
def decodeMove (y z : Nat) : Instruction :=
  if y = 6 ∧ z = 6 then .halt
  else if z = 6 then .moveFromMemory (.ofField y)
  else if y = 6 then .moveToMemory (.ofField z)
  else .move (.ofField y) (.ofField z)

/-- The operations of two operands. -/
def decodeArithmetic (y z : Nat) : Instruction :=
  if z = 6 then .operateMemory (.ofArithmeticField y)
  else .operateRegister (.ofArithmeticField y) (.ofField z)

/-- The branches, the stack instructions and the immediate operations. -/
def decodeControl (opcode : UInt8) (y z : Nat) : Instruction :=
  match z with
  | 0 => .ret (some (.ofField y))
  | 1 =>
    match y with
    | 1 => .ret none
    | 5 => .jumpHl
    | 0 | 2 | 4 | 6 => .pop (.ofField (y / 2))
    | _ => .unimplemented opcode
  | 2 => .jump (some (.ofField y))
  | 3 =>
    match y with
    | 0 => .jump none
    | 2 => .output
    | 4 => .exchangeStackTop
    | 5 => .exchange
    | _ => .unimplemented opcode
  | 4 => .call (some (.ofField y))
  | 5 => if y = 1 then .call none else .push (.ofField (y / 2))
  | 6 => .operateImmediate (.ofArithmeticField y)
  | _ => .unimplemented opcode

def decode (opcode : UInt8) : Instruction :=
  -- an opcode is two bits for its group and two fields of three bits
  let n := opcode.toNat
  let y := n / 8 % 8
  let z := n % 8
  match n / 64 with
  | 0 => decodeData opcode y z
  | 1 => decodeMove y z
  | 2 => decodeArithmetic y z
  | _ => decodeControl opcode y z

/-! ## Size -/

/-- How many bytes the instruction takes in memory, the opcode included. -/
def byteLength : Instruction → Nat
  | moveImmediateToMemory | moveImmediate _ | operateImmediate _ | output => 2
  | loadPairImmediate _ | jump _ | call _ | direct _ => 3
  | _ => 1

end Instruction

end Micro8080
