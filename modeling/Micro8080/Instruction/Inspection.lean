import Micro8080.Fault
import Micro8080.Instruction.Basic

/-!
# Inspection text of instructions

An instruction by the name of its form and its operand fields, which are shown as the numbers
that stand in the opcode.  An operation on a register is shown under a form of its own when the
register is the accumulator.
-/

namespace Micro8080

def Condition.inspect (k : Condition) : String :=
  Inspection.fields "Condition"
    [("flag", toString k.flag.index), ("expected", Inspection.bool k.expected)]

namespace Instruction

def inspect : Instruction → String
  | halt => "Halt"
  | moveFromMemory target => Inspection.fields "MoveFromMemory" [register "dst" target]
  | moveToMemory source => Inspection.fields "MoveToMemory" [register "src" source]
  | move target source => Inspection.fields "Move" [register "dst" target, register "src" source]
  | moveImmediateToMemory => "MoveImmediateToMemory"
  | moveImmediate target => Inspection.fields "MoveImmediate" [register "dst" target]
  | stepMemory down => Inspection.fields "StepMemory" [decrement down]
  | stepRegister target down =>
    Inspection.fields "StepRegister" [register "reg" target, decrement down]
  | stepPair target down => Inspection.fields "StepPair" [pair target.field, decrement down]
  | loadPairImmediate target => Inspection.fields "LoadPairImmediate" [pair target.field]
  | operateMemory op => Inspection.fields "AluMemory" [operation op]
  | operateRegister op .a => Inspection.fields "AluAccumulator" [operation op]
  | operateRegister op source =>
    Inspection.fields "AluRegister" [operation op, register "src" source]
  | operateImmediate op => Inspection.fields "AluImmediate" [operation op]
  | operateAccumulator op => Inspection.fields "AccumulatorOp" [operation op]
  | jump k => Inspection.fields "Jump" [condition k]
  | call k => Inspection.fields "Call" [condition k]
  | ret k => Inspection.fields "Return" [condition k]
  | output => "Output"
  | exchange => "Exchange"
  | exchangeStackTop => "ExchangeStackTop"
  | jumpHl => "JumpHl"
  | direct l => Inspection.fields "Direct" [load l]
  | push source => Inspection.fields "Push" [pair source.field]
  | pop target => Inspection.fields "Pop" [pair target.field]
  | addPair source => Inspection.fields "AddPair" [pair source.field]
  | indirect p l => Inspection.fields "Indirect" [pair p.field, load l]
  | unimplemented opcode => Inspection.call "Unimplemented" [toString opcode.toNat]
where
  register (label : String) (r : Register) := (label, toString r.field)
  pair (n : Nat) := ("pair", toString n)
  operation (op : Operation) := ("op", op.title)
  decrement (b : Bool) := ("decrement", Inspection.bool b)
  load (b : Bool) := ("load", Inspection.bool b)
  condition (k : Option Condition) :=
    ("condition", Inspection.optional (k.map Condition.inspect))

end Instruction

end Micro8080
