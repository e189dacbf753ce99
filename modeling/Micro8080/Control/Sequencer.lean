import Micro8080.Control.Microcode

/-!
# The sequencer

The sequencer counts the stages of an instruction and holds the control word that was decided
for the present one.  A falling edge moves it to the next stage, or to stage 0 once the last
stage is reached; the settling phase then decides the word of that stage.  A decision that
cannot be made leaves the idle word, and the instruction unfinished.
-/

namespace Micro8080

/-- The stage counter and the last decision. -/
structure Sequencer where
  word : ControlWord := {}
  /-- The present stage; 0 to 2 fetch the opcode.  The counter sticks at 255. -/
  stage : Nat := 0
  /-- The stage that the present instruction ends with. -/
  lastStage : Nat := 2
  /-- The present stage is the last one, so that a fetch comes next. -/
  atLast : Bool := true
  /-- A call was passed over since this was cleared. -/
  skippedCall : Bool := false
  haltReason : Option HaltReason := none
  /-- A request that the host has not taken yet. -/
  pendingCall : Option SystemCall := none
  deriving DecidableEq, Repr, Inhabited

namespace Sequencer

/-- The stage at which an instruction's own microprogram starts. -/
def firstOwnStage : Nat := 3

/-- The falling edge: on to the next stage. -/
def fall (s : Sequencer) : Sequencer :=
  { s with stage := if s.atLast then 0 else min 255 (s.stage + 1) }

def decision (s : Sequencer) (opcode : UInt8) (p : Microcode.Probe) :
    Except Fault Microcode.Decision :=
  match Microcode.fetch[s.stage]? with
  | some word => .ok { word, last := false, lastStage := s.lastStage }
  | none => Microcode.decision opcode s.stage p

/-- The sequencer after a decision, or after the failure to make one. -/
def adopt (s : Sequencer) (opcode : UInt8) : Except Fault Microcode.Decision → Sequencer
  | .ok d =>
    { s with
      word := d.word
      lastStage := d.lastStage
      atLast := d.last
      skippedCall := s.skippedCall || d.skipsCall
      haltReason := d.halt <|> s.haltReason
      pendingCall := d.call <|> s.pendingCall }
  | .error _ =>
    -- the parts are asked for nothing, and the instruction does not end
    { s with
      word := .idle
      lastStage := (Instruction.decode opcode).lastStage
      atLast := false }

/-- The settling phase: the control word of the present stage is decided. -/
def settle (s : Sequencer) (opcode : UInt8) (p : Microcode.Probe) : Sequencer × Option Fault :=
  let d := s.decision opcode p
  (s.adopt opcode d, match d with | .ok _ => none | .error fault => some fault)

/-- The host takes the request, if there is one. -/
def takeCall (s : Sequencer) : Option SystemCall × Sequencer :=
  (s.pendingCall, { s with pendingCall := none })

def clearSkippedCall (s : Sequencer) : Sequencer := { s with skippedCall := false }

end Sequencer

end Micro8080
