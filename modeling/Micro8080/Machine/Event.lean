import Micro8080.Debugger.Stop
import Micro8080.Instruction.Assembly
import Micro8080.Log
import Micro8080.Machine.Basic

/-!
# Events

Whatever a host can learn of a run while it goes on is an event: requests to the host, values
shown, half-ticks completed, faults.  The machine only emits events and never looks at what
becomes of them.  Each event has a sentence for the log.
-/

namespace Micro8080

/-- Something a host may want to know of. -/
inductive Event where
  /-- The reset line was up. -/
  | resetPulse
  /-- The program calls the host, which may look at memory. -/
  | systemCall (call : SystemCall) (memory : Memory)
  /-- An opcode without microcode is about to halt the machine. -/
  | unimplemented (opcode : UInt8) (address : UInt16)
  /-- An opcode was fetched from this address. -/
  | fetched (address : UInt16) (memory : Memory)
  | output (value : UInt8)
  /-- A half-tick raised a fault, and left the machine like this. -/
  | faulted (fault : Fault) (machine : Machine)
  /-- A half-tick is done, and leaves the machine like this before the clock advances. -/
  | completed (machine : Machine)
  /-- A run has come to rest. -/
  | halted (halfTicks : Nat) (reason : Option HaltReason)
  /-- The debugger stops. -/
  | stopped (steps : Nat) (event : Debugger.StopEvent)

namespace Event

def level : Event → Log.Level
  | faulted .. => .error
  | unimplemented .. => .warn
  | systemCall .. | output _ | halted .. => .info
  | resetPulse | fetched .. | stopped .. => .debug
  | completed _ => .trace

def source : Event → Log.Source
  | unimplemented .. => .sequencer
  | stopped .. => .debugger
  | _ => .machine

/-- The sentence that the log shows for an event. -/
def text : Event → String
  | resetPulse => "reset pulse"
  | systemCall call _ =>
    s!"system call C={call.function.toNat} DE={Numeral.hex 4 call.argument.toNat}"
  | unimplemented opcode address =>
    s!"opcode {Numeral.octal 3 opcode.toNat} ({Numeral.hex 2 opcode.toNat})" ++
      s!" at {Numeral.hex 4 address.toNat} is not implemented; halting"
  | fetched address memory =>
    s!"fetch {Numeral.hex 4 address.toNat}: {(memory.disassemble address).text}"
  | output value => s!"OUT {Numeral.hex 2 value.toNat} ({value.toNat})"
  | faulted fault m =>
    s!"{fault.message} at half-tick {m.clock.halfTicks} (pc {Numeral.hex 4 m.pc.toNat}," ++
      s!" ir {Numeral.hex 2 m.opcode.toNat}, stage {m.sequencer.stage})"
  | completed m =>
    s!"{m.clock.phase.name} {m.clock.halfTicks} stage {m.sequencer.stage}" ++
      s!" ctrl {Numeral.hex 8 m.sequencer.word.bits.toNat} bus {Numeral.hex 4 m.bus.toNat}"
  | halted halfTicks reason =>
    s!"halted after {halfTicks} half-ticks: " ++
      Inspection.optional (reason.map HaltReason.inspect)
  | stopped steps event => s!"stopped after {steps} steps: {event.inspect}"

/-- The log record of an event, unless the threshold keeps it out. -/
def record? (e : Event) (t : Log.Threshold) : Option Log.Record :=
  if t.admits e.level then some { level := e.level, source := e.source, text := e.text } else none

end Event

end Micro8080
