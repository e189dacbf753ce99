import Micro8080.Machine.HalfTick

/-!
# Runs

A run repeats half-ticks, either to the end of the present instruction or until a budget is
spent or the machine comes to rest.  A run has a watcher, a state of any type that takes in every
event as it happens: a history, a log, a console, or all of them.  The machine's side of a run
does not depend on the watcher.
-/

namespace Micro8080

/-- The outcome of a run. -/
structure Outcome (ω α : Type) where
  machine : Machine
  watcher : ω
  result : Except Fault α

/-- How long a run took, and whether it ended because the machine came to rest. -/
structure RunReport where
  halfTicks : Nat
  halted : Bool
  deriving DecidableEq, Repr

namespace Machine

variable {ω : Type} (see : ω → Event → ω)

/-- One half-tick under a watcher. -/
def watchedHalfTick (m : Machine) (w : ω) : Outcome ω Unit :=
  let t := m.halfTick
  { machine := t.machine
    watcher := t.events.foldl see w
    result := match t.fault with | none => .ok () | some fault => .error fault }

/-- Two half-ticks. -/
def watchedPair (m : Machine) (w : ω) : Outcome ω Unit :=
  let t := m.watchedHalfTick see w
  match t.result with
  | .error fault => { t with result := .error fault }
  | .ok _ => t.machine.watchedHalfTick see t.watcher

/-- Pairs of half-ticks up to the last stage of an instruction, at most `n` of them. -/
def pairsToLastStage : Nat → Machine → ω → Outcome ω Unit
  | 0, m, w => { machine := m, watcher := w, result := .ok () }
  | n + 1, m, w =>
    let t := m.watchedPair see w
    match t.result with
    | .error _ => t
    | .ok _ =>
      if t.machine.sequencer.atLast then t else pairsToLastStage n t.machine t.watcher

/-- No instruction has more stages than this, so none takes more pairs of half-ticks. -/
def maxStages : Nat := 16

/-- One instruction. -/
def step (m : Machine) (w : ω) : Outcome ω Unit :=
  pairsToLastStage see maxStages { m with sequencer := m.sequencer.clearSkippedCall } w

/-- Half-ticks until the budget is spent or the machine rests, after `done` earlier ones. -/
def runOn : Nat → Nat → Machine → ω → Outcome ω Nat
  | 0, done, m, w => { machine := m, watcher := w, result := .ok done }
  | budget + 1, done, m, w =>
    if m.halted then { machine := m, watcher := w, result := .ok done }
    else
      let t := m.watchedHalfTick see w
      match t.result with
      | .error fault => { t with result := .error fault }
      | .ok _ => runOn budget (done + 1) t.machine t.watcher

/-- Half-ticks until the budget is spent or the machine rests. -/
def run (budget : Nat) (m : Machine) (w : ω) : Outcome ω RunReport :=
  let t := runOn see budget 0 m w
  match t.result with
  | .error fault => { t with result := .error fault }
  | .ok halfTicks =>
    let halted := t.machine.halted
    { machine := t.machine
      watcher := if halted then see t.watcher (.halted halfTicks t.machine.haltReason)
        else t.watcher
      result := .ok { halfTicks, halted } }

end Machine

end Micro8080
