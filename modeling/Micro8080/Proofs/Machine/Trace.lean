import Micro8080.Computer.Basic

/-! # Runs without a watcher

A run hands its events to a watcher as they happen, but the machine never looks at what becomes of
them.  Here the runs are stated for the machine alone, with the list of the events they emit:
`Machine.pairs` and `Machine.instruct`.  A watched run is one of these with the watcher folded over
the list (`pairsToLastStage_eq`, `step_eq`), so that what is proved of the machine's side of a run
holds under every watcher, and under every configuration of a computer.
-/

namespace Micro8080

namespace Moment

/-- A run that goes on where another one ended, unless that raised a fault. -/
def andThen (t : Moment) (next : Machine → Moment) : Moment :=
  match t.fault with
  | some _ => t
  | none =>
    let u := next t.machine
    { u with events := t.events ++ u.events }

theorem andThen_of_ok {t : Moment} (h : t.fault = none) (next : Machine → Moment) :
    t.andThen next =
      { next t.machine with events := t.events ++ (next t.machine).events } := by
  simp only [andThen, h]

theorem andThen_of_fault {t : Moment} {f : Fault} (h : t.fault = some f)
    (next : Machine → Moment) : t.andThen next = t := by
  simp only [andThen, h]

def result (t : Moment) : Except Fault Unit :=
  match t.fault with
  | none => .ok ()
  | some fault => .error fault

theorem result_eq_ok_iff (t : Moment) : t.result = .ok () ↔ t.fault = none := by
  rw [result]
  cases t.fault with
  | none => exact iff_of_true rfl rfl
  | some f => exact iff_of_false nofun nofun

/-- A run under a watcher. -/
def seen {ω : Type} (see : ω → Event → ω) (t : Moment) (w : ω) : Outcome ω Unit :=
  { machine := t.machine, watcher := t.events.foldl see w, result := t.result }

end Moment

namespace Machine

def pair (m : Machine) : Moment := m.halfTick.andThen halfTick

/-- Pairs of half-ticks up to the last stage of an instruction, at most `n` of them. -/
def pairs : Nat → Machine → Moment
  | 0, m => { machine := m }
  | n + 1, m => m.pair.andThen fun k => if k.sequencer.atLast then { machine := k } else pairs n k

def instruct (m : Machine) : Moment :=
  pairs maxStages { m with sequencer := m.sequencer.clearSkippedCall }

variable {ω : Type} (see : ω → Event → ω)

theorem watchedHalfTick_eq (m : Machine) (w : ω) :
    m.watchedHalfTick see w = m.halfTick.seen see w := rfl

theorem watchedPair_eq (m : Machine) (w : ω) : m.watchedPair see w = m.pair.seen see w := by
  simp only [watchedPair, watchedHalfTick_eq, pair, Moment.andThen]
  cases fault : m.halfTick.fault with
  | some f => simp only [Moment.seen, Moment.result, fault]
  | none => simp only [Moment.seen, Moment.result, fault, List.foldl_append]

/-- A watcher sees the events of the machine's run, and the run is the machine's own. -/
theorem pairsToLastStage_eq (n : Nat) (m : Machine) (w : ω) :
    pairsToLastStage see n m w = (m.pairs n).seen see w := by
  induction n generalizing m w with
  | zero => rfl
  | succ n ih =>
    simp only [pairsToLastStage, watchedPair_eq, pairs]
    cases fault : m.pair.fault with
    | some f =>
      rw [Moment.andThen_of_fault fault]
      simp only [Moment.seen, Moment.result, fault]
    | none =>
      rw [Moment.andThen_of_ok fault]
      simp only [Moment.seen, Moment.result, fault]
      split
      · simp only [List.append_nil]
      · rw [ih]
        simp only [Moment.seen, Moment.result, List.foldl_append]

theorem step_eq (m : Machine) (w : ω) : m.step see w = m.instruct.seen see w :=
  pairsToLastStage_eq see maxStages _ w

end Machine

namespace Computer

variable {ω : Type} (see : ω → Event → ω) (c : Computer) (w : ω)

theorem result_halfTick : (c.halfTick see w).2.2 = c.machine.halfTick.result := rfl

theorem machine_step : (c.step see w).1.machine = c.machine.instruct.machine := by
  simp only [step, adopt, Machine.step_eq, Moment.seen]

theorem result_step : (c.step see w).2.2 = c.machine.instruct.result := by
  simp only [step, adopt, Machine.step_eq, Moment.seen]

end Computer

end Micro8080
