import Micro8080.CommandLine.Terminal
import Micro8080.Computer.Basic
import Micro8080.Json.Printer
import Micro8080.Program

/-!
# Reports

How a command shows registers, rows of a listing, faults and snapshots.
-/

namespace Micro8080.CommandLine

/-- The registers on one line. -/
def registerLine (m : Machine) : String :=
  let r := m.registers
  let bytes := [("A", m.alu.acc), ("F", m.alu.flags.toByte), ("B", r.b), ("C", r.c), ("D", r.d),
    ("E", r.e), ("H", r.h), ("L", r.l)]
  let words := [("SP", r.sp), ("PC", r.pc)]
  " ".intercalate
    (bytes.map (fun x => x.1 ++ "=" ++ Numeral.hexCapital 2 x.2.toNat) ++
      words.map (fun x => x.1 ++ "=" ++ Numeral.hexCapital 4 x.2.toNat) ++
      ["OUT=" ++ Numeral.hexCapital 2 m.out.toNat])

/-- Why the machine rests, in a few words. -/
def haltText : Option HaltReason → String
  | some (.unimplemented opcode address) =>
    s!"unimplemented opcode {Numeral.hex 2 opcode.toNat} at {Numeral.hex 4 address.toNat}"
  | some .instruction | none => "HLT"

def faultText (m : Machine) (fault : Fault) : String :=
  s!"error: {fault.message} (pc {Numeral.hex 4 m.pc.toNat}, ir {Numeral.hex 2 m.opcode.toNat}," ++
    s!" half-tick {m.clock.halfTicks})"

/-- Address, label and text of a row, in columns. -/
def rowText (labels : Labels) (row : Listing.Row) : String :=
  let label := (labels.nameAt? row.address).getD ""
  Numeral.hexCapital 4 row.address.toNat ++ " " ++ padRight 10 label ++ " " ++
    padRight 14 row.text

def bytesText (bytes : List UInt8) : String :=
  " ".intercalate (bytes.map fun b => Numeral.hexCapital 2 b.toNat)

/-- A snapshot with all its fields. -/
def snapshotValue (s : Snapshot) : Json.Value :=
  .record
    [("half_ticks", .number s.halfTicks), ("phase", .text s.phase.name),
      ("control_word", .number s.word.bits.toNat),
      ("registers", .list (s.cells.toList.map .ofByte)), ("ir", .ofByte s.opcode),
      ("alu_acc", .ofByte s.acc), ("alu_stored", .ofByte s.stored),
      ("alu_tmp", .ofByte s.operand), ("alu_carry", .bool s.carry),
      ("alu_flags", .ofByte s.flags.toByte), ("bus", .ofWord s.bus),
      ("memory", .list (s.memory.toList.map .ofByte)), ("mar", .ofWord s.address),
      ("stage", .number s.stage), ("stage_max", .number s.lastStage),
      ("stage_rst", .bool s.atLast), ("out", .ofByte s.out)]

/-- The snapshots of a history. -/
def historyValue (history : Array Snapshot) : Json.Value :=
  .list (history.toList.map snapshotValue)

/-- A reason to halt with its fields. -/
def haltValue : HaltReason → Json.Value
  | .instruction => .text "Instruction"
  | .unimplemented opcode address =>
    .record [("UnimplementedOpcode",
      .record [("opcode", .ofByte opcode), ("address", .ofWord address)])]

/-- What a run came to. -/
def runValue (c : Computer) (r : RunReport) : Json.Value :=
  .record
    [("outcome", .record [("half_ticks", .number r.halfTicks), ("halted", .bool r.halted)]),
      ("halt_reason", .optional haltValue c.machine.haltReason),
      ("history", historyValue c.history)]

/-- What a step came to. -/
def stepValue (labels : Labels) (row : Listing.Row) (history : Array Snapshot) : Json.Value :=
  .record
    [("address", .ofWord row.address), ("label", .optional .text (labels.nameAt? row.address)),
      ("text", .text row.text), ("states", historyValue history)]

end Micro8080.CommandLine
