import Micro8080.Fault
import Micro8080.Text.Quoted

/-!
# Why a debugger stops

A run under the debugger ends with one of these events.
-/

namespace Micro8080.Debugger

/-- What ended a run under the debugger. -/
inductive StopEvent where
  | step (pc : UInt16)
  | breakpoint (pc : UInt16)
  /-- The frame that was stepped over or out of has returned. -/
  | steppedOut (frame : String) (pc : UInt16)
  | halted (reason : Option HaltReason) (pc : UInt16)
  | budgetExhausted
  deriving DecidableEq, Repr

def StopEvent.inspect : StopEvent → String
  | step pc => Inspection.fields "Step" [("pc", toString pc.toNat)]
  | breakpoint pc => Inspection.fields "Breakpoint" [("pc", toString pc.toNat)]
  | steppedOut frame pc =>
    Inspection.fields "SteppedOut" [("frame", Quoted.quote frame), ("pc", toString pc.toNat)]
  | halted reason pc =>
    Inspection.fields "Halted"
      [("reason", Inspection.optional (reason.map HaltReason.inspect)), ("pc", toString pc.toNat)]
  | budgetExhausted => "BudgetExhausted"

end Micro8080.Debugger
