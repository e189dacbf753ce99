import Micro8080.Machine.Event

/-!
# One half-tick

At a tock the flags and the sequencer see a falling edge, the control word is decided, and then
the output latches and the bus settle, in this order; a request to the host goes out between the
decision and the settling.  At a tick every part sees a rising edge and latches what the bus
carries.  The first fault stops a half-tick where it is: the clock does not advance, and every
later half-tick returns the same fault.
-/

namespace Micro8080

/-- The outcome of a half-tick: the machine, what happened, and the fault, if there was one. -/
structure Moment where
  machine : Machine
  events : List Event := []
  fault : Option Fault := none

namespace Machine

/-- What happens at a decision: an opcode without a meaning is reported, and the request that was
taken, if there is one, goes to the host. -/
def announce (m : Machine) (halt : Option HaltReason) (taken : Option SystemCall) : List Event :=
  let reports :=
    match halt with
    | some (.unimplemented opcode address) => [.unimplemented opcode address]
    | _ => []
  reports ++ taken.toList.map fun call => .systemCall call m.memory

/-- The second half of a tock: output latches and bus follow the control word. -/
def settle (m : Machine) (events : List Event) : Moment :=
  match m.registers.settle m.sequencer.word with
  | .error fault => { machine := m, events, fault := some fault }
  | .ok registers =>
    let m := { m with registers, alu := m.alu.settle, memory := m.memory.settle }
    match Bus.settle m.sequencer.word m.busSources with
    | .error fault => { machine := m, events, fault := some fault }
    | .ok bus => { machine := { m with bus }, events }

/-- The half-tick that decides what the next one does. -/
def tock (m : Machine) : Moment :=
  let m := { m with sequencer := m.sequencer.fall }
  match m.alu.fall m.sequencer.word m.bus with
  | .error fault => { machine := m, fault := some fault }
  | .ok alu =>
    -- the probe looks at the output latch of the flags, which still holds those of the tock before
    let m := { m with alu }
    let decision := m.sequencer.decision m.opcode m.probe
    let m := { m with sequencer := m.sequencer.adopt m.opcode decision }
    match decision with
    | .error fault => { machine := m, fault := some fault }
    | .ok d =>
      let (taken, sequencer) := m.sequencer.takeCall
      { m with sequencer }.settle (m.announce d.halt taken)

/-- The half-tick in which the parts latch what the bus carries. -/
def tick (m : Machine) : Moment :=
  let w := m.sequencer.word
  -- the address as it is before the registers latch
  let fetchAddress := m.pc
  match m.registers.rise w m.bus with
  | .error fault => { machine := m, fault := some fault }
  | .ok registers =>
    let m := { m with registers, opcode := if w.loadInstruction then Word.low m.bus else m.opcode }
    match m.memory.rise w m.bus with
    | .error fault => { machine := m, fault := some fault }
    | .ok memory =>
      let m := { m with memory }
      match m.alu.rise w m.bus with
      | (alu, some fault) => { machine := { m with alu }, fault := some fault }
      | (alu, none) =>
        let fetched := if w.loadInstruction then [.fetched fetchAddress m.memory] else []
        if w.outputs then
          { machine := { m with alu, out := alu.out }, events := fetched ++ [.output alu.out] }
        else { machine := { m with alu }, events := fetched }

/-- The half-tick that the clock asks for. -/
def phaseMoment (m : Machine) : Moment :=
  match m.clock.phase with
  | .tock => m.tock
  | .tick => m.tick

def halfTick (m : Machine) : Moment :=
  match m.fault with
  | some fault => { machine := m, fault := some fault }
  | none =>
    -- a pending reset takes the half-tick, and starts the clock anew
    if m.resetPending then { machine := m.clearParts, events := [.resetPulse] }
    else
      let t := m.phaseMoment
      match t.fault with
      | some fault =>
        -- the clock stays, so that the half-tick that failed is not over
        { machine := { t.machine with fault := if fault.latches then some fault else none }
          events := t.events ++ [.faulted fault t.machine]
          fault := some fault }
      | none =>
        { machine := { t.machine with clock := t.machine.clock.advance }
          events := t.events ++ [.completed t.machine] }

end Machine

end Micro8080
