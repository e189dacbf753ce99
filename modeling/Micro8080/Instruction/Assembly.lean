import Micro8080.Instruction.Basic
import Micro8080.Memory

/-!
# Assembly text

`Instruction.mnemonic` is an instruction without the bytes that follow its opcode;
`Memory.disassemble` adds those bytes as a hexadecimal numeral and gives a row of a listing.
The two immediate moves separate the numeral by a comma from the register before it, the other
instructions by a blank.
-/

namespace Micro8080

/-- A branch's mnemonic, which ends in the name of its condition if it has one. -/
def branchMnemonic (always conditional : String) : Option Condition → String
  | none => always
  | some k => conditional ++ k.name

/-- An instruction as assembly text, without its immediate operand. -/
def Instruction.mnemonic : Instruction → String
  | halt => "HLT"
  | moveFromMemory target => "MOV " ++ target.name ++ ",M"
  | moveToMemory source => "MOV M," ++ source.name
  | move target source => "MOV " ++ target.name ++ "," ++ source.name
  | moveImmediateToMemory => "MVI M"
  | moveImmediate target => "MVI " ++ target.name
  | stepMemory decrement => (if decrement then "DCR" else "INR") ++ " M"
  | stepRegister target decrement => (if decrement then "DCR " else "INR ") ++ target.name
  | stepPair target decrement => (if decrement then "DCX " else "INX ") ++ target.name
  | loadPairImmediate target => "LXI " ++ target.name
  | operateMemory op => op.mnemonic ++ " M"
  | operateRegister op source => op.mnemonic ++ " " ++ source.name
  | operateImmediate op => op.immediateMnemonic
  | operateAccumulator op => op.mnemonic
  | jump condition => branchMnemonic "JMP" "J" condition
  | call condition => branchMnemonic "CALL" "C" condition
  | ret condition => branchMnemonic "RET" "R" condition
  | output => "OUT"
  | exchange => "XCHG"
  | exchangeStackTop => "XTHL"
  | jumpHl => "PCHL"
  | direct load => if load then "LDA" else "STA"
  | push source => "PUSH " ++ source.name
  | pop target => "POP " ++ target.name
  | addPair source => "DAD " ++ source.name
  | indirect pair load => (if load then "LDAX " else "STAX ") ++ pair.name
  | unimplemented opcode => "DB " ++ Numeral.hex 2 opcode.toNat

/-- What stands between a mnemonic and its immediate operand. -/
def Instruction.operandSeparator : Instruction → String
  | moveImmediate _ | moveImmediateToMemory | loadPairImmediate _ => ","
  | _ => " "

/-- One instruction of a listing. -/
structure Listing.Row where
  address : UInt16
  length : Nat
  /-- The instruction with its operand. -/
  text : String
  deriving DecidableEq, Repr

/-- The instruction that memory holds at an address. -/
def Memory.disassemble (m : Memory) (a : UInt16) : Listing.Row :=
  let i := Instruction.decode (m.read a)
  let operand :=
    match i.byteLength with
    | 2 => i.operandSeparator ++ Numeral.hex 2 (m.read (a + 1)).toNat
    | 3 => i.operandSeparator ++ Numeral.hex 4 (m.readWord (a + 1)).toNat
    | _ => ""
  { address := a, length := i.byteLength, text := i.mnemonic ++ operand }

/-- `n` rows from an address on, each at the end of the one before. -/
def Memory.rows (m : Memory) : Nat → UInt16 → List Listing.Row
  | 0, _ => []
  | n + 1, a =>
    let row := m.disassemble a
    row :: m.rows n (a + UInt16.ofNat row.length)

end Micro8080
