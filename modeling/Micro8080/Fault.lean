import Micro8080.Alu.Operation
import Micro8080.Text.Inspection
import Micro8080.Text.Numeral

/-!
# Faults and reasons to halt

A fault is a condition under which the machine cannot go on: a control word that no correct
microcode would hold, microcode that asks for something that is not there, or a program image
that does not fit.  Faults of the first two classes stay latched until the next reset.
`HaltReason` says why the machine came to rest without a fault.
-/

namespace Micro8080

inductive FaultClass where
  /-- A part saw a combination of signals that the hardware forbids. -/
  | protocol
  /-- The microcode asked for something that does not exist. -/
  | microcode
  /-- A program image could not be loaded. -/
  | load
  deriving DecidableEq, Repr

/-- A condition that the machine cannot go on from. -/
inductive Fault where
  | busContention (drivers : Nat)
  /-- More than one signal writes the accumulator. -/
  | accumulatorConflict
  /-- Memory is told to take an address and data at once. -/
  | memoryConflict
  /-- The microcode of an opcode does not reach this stage. -/
  | noSuchStage (opcode : UInt8) (stage lastStage : Nat)
  /-- The operation has a code, but the arithmetic unit cannot do it. -/
  | unsupportedOperation (op : Operation)
  | unknownOperation (code : Nat)
  /-- The selector names cells beyond the register file. -/
  | unknownRegister (bits : Nat)
  /-- A single byte register was told to count up or down. -/
  | countOnByte (bits : Nat)
  | imageTooLarge (size capacity : Nat)
  deriving DecidableEq, Repr

namespace Fault

def faultClass : Fault → FaultClass
  | busContention _ | accumulatorConflict | memoryConflict | countOnByte _ => .protocol
  | noSuchStage .. | unsupportedOperation _ | unknownOperation _ | unknownRegister _ => .microcode
  | imageTooLarge .. => .load

/-- A fault that stops the machine until it is reset. -/
def latches (f : Fault) : Bool := f.faultClass != .load

end Fault

/-- An operation's mnemonic with only its first letter in capitals. -/
def Operation.title : Operation → String
  | .add => "Add" | .adc => "Adc" | .sub => "Sub" | .sbb => "Sbb"
  | .ana => "Ana" | .xra => "Xra" | .ora => "Ora" | .cmp => "Cmp"
  | .rlc => "Rlc" | .rrc => "Rrc" | .ral => "Ral" | .rar => "Rar"
  | .daa => "Daa" | .cma => "Cma" | .stc => "Stc" | .cmc => "Cmc"
  | .inr => "Inr" | .dcr => "Dcr"

namespace Fault

def message : Fault → String
  | busContention drivers => s!"bus contention: {drivers} drivers enabled"
  | accumulatorConflict => "conflicting accumulator write signals"
  | memoryConflict => "memory address and data written in the same tick"
  | noSuchStage opcode stage lastStage =>
    s!"opcode {Numeral.hex 2 opcode.toNat} has no stage {stage} (stage_max {lastStage})"
  | unsupportedOperation op => s!"alu operation {op.title} is not supported"
  | unknownOperation code => s!"invalid alu operation code {code}"
  | unknownRegister bits => s!"invalid register select {Numeral.binary 5 bits}"
  | countOnByte bits => s!"register extend on byte select {Numeral.binary 5 bits}"
  | imageTooLarge size capacity =>
    s!"program of {size} bytes exceeds memory capacity of {capacity}"

/-- The name of a fault's form. -/
def title : Fault → String
  | busContention _ => "BusContention"
  | accumulatorConflict => "AccumulatorConflict"
  | memoryConflict => "MemoryWriteConflict"
  | noSuchStage .. => "InvalidStage"
  | unsupportedOperation _ => "UnsupportedAluOp"
  | unknownOperation _ => "InvalidAluOp"
  | unknownRegister _ => "InvalidRegisterSelect"
  | countOnByte _ => "ExtendOnByteRegister"
  | imageTooLarge .. => "ProgramTooLarge"

def inspect (f : Fault) : String :=
  match f with
  | busContention drivers => Inspection.fields f.title [("drivers", toString drivers)]
  | accumulatorConflict | memoryConflict => f.title
  | noSuchStage opcode stage lastStage =>
    Inspection.fields f.title
      [("opcode", toString opcode.toNat), ("stage", toString stage),
        ("stage_max", toString lastStage)]
  | unsupportedOperation op => Inspection.call f.title [op.title]
  | unknownOperation code => Inspection.call f.title [toString code]
  | unknownRegister bits | countOnByte bits => Inspection.call f.title [toString bits]
  | imageTooLarge size capacity =>
    Inspection.fields f.title [("len", toString size), ("capacity", toString capacity)]

end Fault

inductive HaltReason where
  /-- The program executed `HLT`. -/
  | instruction
  /-- The opcode at this address has no microcode. -/
  | unimplemented (opcode : UInt8) (address : UInt16)
  deriving DecidableEq, Repr

namespace HaltReason

def inspect : HaltReason → String
  | instruction => "Instruction"
  | unimplemented opcode address =>
    Inspection.fields "UnimplementedOpcode"
      [("opcode", toString opcode.toNat), ("address", toString address.toNat)]

end HaltReason

end Micro8080
