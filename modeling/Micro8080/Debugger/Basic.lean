import Micro8080.Computer.Basic
import Micro8080.Program

/-!
# The debugger

A debugger runs a labelled program instruction by instruction.  It keeps a frame for each call
that was taken and has not returned, and a set of breakpoints.  A mode says how far a run goes;
whatever the mode, a run ends when the machine rests or the program counter is at a breakpoint
after an instruction.
-/

namespace Micro8080

namespace Debugger

/-- How far a run goes. -/
inductive Mode where
  | into
  /-- One instruction, or a call up to its return. -/
  | over
  /-- Up to the return of the present frame. -/
  | out
  | continue
  deriving DecidableEq, Repr

/-- A call that has not returned. -/
structure Frame where
  /-- The label of the address it was entered at. -/
  name : String
  /-- The address it was entered at. -/
  entry : UInt16
  deriving DecidableEq, Repr

/-- The frame that no call made. -/
def rootFrame : Frame where
  name := "__main__"
  entry := 0

/-- The name of a frame whose entry has no label. -/
def unnamed : String := "unknown"

/-- How many instructions a run took, and why it ended. -/
structure Stop where
  steps : Nat
  event : StopEvent
  deriving DecidableEq, Repr

end Debugger

open Debugger

/-- A computer with a program, breakpoints in ascending order, and frames from the outermost
in. -/
structure Debugger where
  computer : Computer
  program : Program
  breakpoints : List UInt16 := []
  frames : Array Frame := #[rootFrame]

namespace Debugger

/-- A debugger on a computer that was just switched on with the program. -/
def new (program : Program) (k : Config) : Except Fault Debugger :=
  (Computer.ofImage k program.image).map fun computer => { computer, program }

/-- Switches the computer off and on again, with the program in memory, and forgets the frames.
Breakpoints stay. -/
def restart (d : Debugger) : Debugger × Except Fault Unit :=
  match d.computer.reset d.program.image with
  | (computer, .ok _) => ({ d with computer, frames := #[rootFrame] }, .ok ())
  | (computer, .error fault) => ({ d with computer }, .error fault)

/-! ## Breakpoints -/

/-- Addresses in ascending order, with one more. -/
def insertSorted (a : UInt16) : List UInt16 → List UInt16
  | [] => [a]
  | x :: rest =>
    if a = x then x :: rest else if a < x then a :: x :: rest else x :: insertSorted a rest

/-- Sets a breakpoint; the answer is whether it is new. -/
def setBreakpoint (d : Debugger) (a : UInt16) : Debugger × Bool :=
  ({ d with breakpoints := insertSorted a d.breakpoints }, !d.breakpoints.contains a)

/-- Sets a breakpoint at a label; the answer is its address. -/
def setBreakpointAt (d : Debugger) (label : String) : Debugger × Option UInt16 :=
  match d.program.labels.addressOf? label with
  | some a => ((d.setBreakpoint a).1, some a)
  | none => (d, none)

/-- Clears a breakpoint; the answer is whether it was set. -/
def clearBreakpoint (d : Debugger) (a : UInt16) : Debugger × Bool :=
  ({ d with breakpoints := d.breakpoints.filter (· != a) }, d.breakpoints.contains a)

def clearBreakpoints (d : Debugger) : Debugger := { d with breakpoints := [] }

/-! ## Running -/

/-- What an instruction did to the frames. -/
inductive FrameChange where
  | entered
  /-- A return was taken, and there is a frame for it. -/
  | returned (frame : Frame)
  | unchanged
  deriving DecidableEq, Repr

/-- What the instruction just carried out does to the frames. -/
def frameChange (d : Debugger) : FrameChange :=
  let m := d.computer.machine
  match Instruction.decode m.opcode with
  | .call _ => if m.sequencer.skippedCall then .unchanged else .entered
  | .ret _ =>
    if Sequencer.firstOwnStage < m.sequencer.stage ∧ 1 < d.frames.size then
      match d.frames.back? with
      | some frame => .returned frame
      | none => .unchanged
    else .unchanged
  | _ => .unchanged

/-- The frame of a call that was just taken. -/
def enteredFrame (d : Debugger) : Frame :=
  let pc := d.computer.machine.pc
  { name := (d.program.labels.nameAt? pc).getD unnamed, entry := pc }

/-- The debugger with the frames after the instruction just carried out. -/
def trackFrames (d : Debugger) : Debugger :=
  match d.frameChange with
  | .entered => { d with frames := d.frames.push d.enteredFrame }
  | .returned _ => { d with frames := d.frames.pop }
  | .unchanged => d

def breakpointEvent? (d : Debugger) : Option StopEvent :=
  let pc := d.computer.machine.pc
  if d.breakpoints.contains pc then some (.breakpoint pc) else none

/-- The depth that a run looks for from the start: that of the caller, when stepping out. -/
def initialTarget (d : Debugger) (mode : Mode) : Option Nat :=
  if mode = .out ∧ 1 < d.frames.size then some (d.frames.size - 1) else none

/-- The depth that a run looks for after the instruction just carried out.  Stepping over a call
looks for the depth of its caller. -/
def nextTarget (d : Debugger) (mode : Mode) (target : Option Nat) (change : FrameChange) :
    Option Nat :=
  if change = .entered ∧ mode = .over ∧ target = none then some (d.frames.size - 1) else target

/-- Why a run stops after the instruction just carried out, if it does.  The frames are those
after the instruction. -/
def stopEvent? (d : Debugger) (mode : Mode) (target : Option Nat) (change : FrameChange) :
    Option StopEvent :=
  let m := d.computer.machine
  let general :=
    if m.halted then some (.halted m.haltReason m.pc)
    else
      match d.breakpointEvent? with
      | some event => some event
      | none =>
        if mode = .continue ∨ (mode ≠ .into ∧ target ≠ none) then none else some (.step m.pc)
  match change with
  | .entered => if mode = .into then general else d.breakpointEvent?
  | .returned frame =>
    if mode ≠ .into ∧ target = some d.frames.size then some (.steppedOut frame.name m.pc)
    else general
  | .unchanged => general

variable {ω : Type} (see : ω → Event → ω)

/-- Instructions until the run stops or the budget is spent, after `done` earlier ones. -/
def runOn (mode : Mode) :
    Nat → Nat → Option Nat → Debugger → ω → Debugger × ω × Except Fault Stop
  | 0, done, _, d, w => (d, w, .ok { steps := done, event := .budgetExhausted })
  | budget + 1, done, target, d, w =>
    match d.computer.step see w with
    | (computer, w, .error fault) => ({ d with computer }, w, .error fault)
    | (computer, w, .ok _) =>
      let d := { d with computer }
      let change := d.frameChange
      let d := d.trackFrames
      let target := d.nextTarget mode target change
      match d.stopEvent? mode target change with
      | some event =>
        (d, see w (.stopped (done + 1) event), .ok { steps := done + 1, event })
      | none => runOn mode budget (done + 1) target d w

/-- Instructions until the run stops or the budget is spent. -/
def run (mode : Mode) (budget : Nat) (d : Debugger) (w : ω) : Debugger × ω × Except Fault Stop :=
  runOn see mode budget 0 (d.initialTarget mode) d w

end Debugger

end Micro8080
