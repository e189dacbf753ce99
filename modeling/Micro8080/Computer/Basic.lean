import Micro8080.Machine.Run
import Micro8080.Machine.Snapshot

/-!
# The computer

A computer is a machine with a history: the snapshots of the half-ticks since the last reset or
the start of the last step, as far as its configuration asks for them.  The history is kept by
watching the machine, so that it cannot change what the machine does.
-/

namespace Micro8080

/-- What a computer records, and how long it runs if not told otherwise. -/
structure Config where
  /-- How many bytes of memory a snapshot holds. -/
  window : Nat := 256
  /-- How many half-ticks a run takes at most. -/
  runBudget : Nat := 2000
  recordHistory : Bool := true
  deriving DecidableEq, Repr

structure Computer where
  machine : Machine
  config : Config
  history : Array Snapshot

namespace Computer

/-- The history of a machine that was just switched on: one snapshot, which shows no last
stage. -/
def powerOnHistory (m : Machine) (k : Config) : Array Snapshot :=
  if k.recordHistory then #[{ m.snapshot k.window with lastStage := 0 }] else #[]

/-- A computer that was just switched on, with empty memory. -/
def new (k : Config) : Computer where
  machine := {}
  config := k
  history := powerOnHistory {} k

instance : Inhabited Computer := ⟨new {}⟩

/-- Resets the machine, and starts the history anew.  An image that does not fit leaves memory
empty. -/
def reset (c : Computer) (image : Array UInt8) : Computer × Except Fault Unit :=
  let (machine, fault) := c.machine.reset image
  ({ c with machine, history := powerOnHistory machine c.config },
    match fault with | none => .ok () | some fault => .error fault)

/-- A computer with an image in memory. -/
def ofImage (k : Config) (image : Array UInt8) : Except Fault Computer :=
  let (c, result) := (new k).reset image
  result.map fun _ => c

def pulseReset (c : Computer) : Computer := { c with machine := c.machine.pulseReset }

def snapshot (c : Computer) : Snapshot := c.machine.snapshot c.config.window

/-- The history after an event. -/
def recorded (k : Config) (history : Array Snapshot) : Event → Array Snapshot
  | .completed m => if k.recordHistory then history.push (m.snapshot k.window) else history
  | _ => history

variable {ω : Type} (see : ω → Event → ω)

/-- The history and another watcher take in an event. -/
def watch (k : Config) (w : Array Snapshot × ω) (e : Event) : Array Snapshot × ω :=
  (recorded k w.1 e, see w.2 e)

/-- The computer and the other watcher after its machine ran. -/
def adopt {α : Type} (k : Config) (t : Outcome (Array Snapshot × ω) α) :
    Computer × ω × Except Fault α :=
  ({ machine := t.machine, config := k, history := t.watcher.1 }, t.watcher.2, t.result)

def halfTick (c : Computer) (w : ω) : Computer × ω × Except Fault Unit :=
  adopt c.config (c.machine.watchedHalfTick (watch see c.config) (c.history, w))

/-- One instruction.  The history starts anew, and is that of the instruction afterwards. -/
def step (c : Computer) (w : ω) : Computer × ω × Except Fault Unit :=
  adopt c.config (c.machine.step (watch see c.config) (#[], w))

/-- Half-ticks until the budget is spent or the machine rests. -/
def run (budget : Nat) (c : Computer) (w : ω) : Computer × ω × Except Fault RunReport :=
  adopt c.config (c.machine.run (watch see c.config) budget (c.history, w))

def runDefault (c : Computer) (w : ω) : Computer × ω × Except Fault RunReport :=
  c.run see c.config.runBudget w

def inspect (c : Computer) : String :=
  Inspection.someFields "Computer"
    [("half_ticks", toString c.machine.clock.halfTicks),
      ("stage", toString c.machine.sequencer.stage),
      ("pc", toString c.machine.pc.toNat),
      ("fault", Inspection.optional (c.machine.fault.map Fault.inspect)),
      ("history", toString c.history.size)]

end Computer

end Micro8080
