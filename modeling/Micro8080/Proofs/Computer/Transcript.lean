import Micro8080.Proofs.Computer.History
import Micro8080.Proofs.Machine.Likeness

/-! # Transcripts

A host that calls a computer gets replies, and finds snapshots in the history.  The transcript of a
list of calls is all of this, call by call.

Whatever the call, it is a run of the machine (`Machine.Serves`), and the run knows neither the
configuration nor the watcher.  So machines that run alike serve a call alike, and computers on such
machines have like transcripts (`Likeness.transcript`), and leave hosts in the same state
(`Likeness.host`).
-/

namespace Micro8080

/-- The snapshots that a computer keeps of these machines. -/
def Config.pictures (k : Config) (ms : List Machine) : List Snapshot :=
  if k.recordHistory then ms.map fun m => m.snapshot k.window else []

namespace Computer

/-- What comes back from a call: an error, or the report of a run, or nothing to report. -/
abbrev Reply : Type := Except Fault (Option RunReport)

/-- A call, as a host sees it. -/
structure Entry where
  reply : Reply
  /-- The snapshots that the call added to the history. -/
  snapshots : List Snapshot

/-- The history that a call goes on from.  A reset and a step start it anew. -/
def carried (c : Computer) : Call → Array Snapshot
  | .reset _ | .step => #[]
  | .pulseReset | .halfTick | .run _ => c.history

variable {ω : Type} (see : ω → Event → ω)

def reply (c : Computer) (w : ω) : Call → Reply
  | .reset image => (c.reset image).2.map fun _ => none
  | .pulseReset => .ok none
  | .halfTick => (c.halfTick see w).2.2.map fun _ => none
  | .step => (c.step see w).2.2.map fun _ => none
  | .run budget => (c.run see budget w).2.2.map some

def entry (c : Computer) (w : ω) (call : Call) : Entry where
  reply := c.reply see w call
  snapshots := (c.perform see w call).1.history.toList.drop (c.carried call).size

/-- The calls of a list, as a host sees them. -/
def transcript (c : Computer) (w : ω) : List Call → List Entry
  | [] => []
  | call :: calls =>
    c.entry see w call :: transcript (c.perform see w call).1 (c.perform see w call).2.1 calls

end Computer

/-! ## Calls as runs -/

namespace Machine

open Computer (Call)

/-- A machine that was just switched on is shown without a last stage. -/
def starting (m : Machine) : Machine := { m with sequencer := { m.sequencer with lastStage := 0 } }

def switchOn (image : Array UInt8) : Moment where
  machine := (powerOn image).1
  events := [.completed (powerOn image).1.starting]
  fault := (powerOn image).2

/-- The machine serves a call by this run, and has this to report. -/
inductive Serves (m : Machine) : Call → Moment → Option RunReport → Prop where
  | reset (image : Array UInt8) : Serves m (.reset image) (switchOn image) none
  | pulseReset : Serves m .pulseReset { machine := m.pulseReset } none
  | halfTick : Serves m .halfTick m.halfTick none
  | step : Serves m .step m.instruct none
  | run {budget k : Nat} (stops : m.StopsAfter budget k) :
      Serves m (.run budget) (m.halfTicks k)
        (some { halfTicks := k, halted := (m.halfTicks k).machine.halted })

theorem exists_serves (m : Machine) (call : Call) : ∃ t report, m.Serves call t report := by
  cases call with
  | reset image => exact ⟨_, _, .reset image⟩
  | pulseReset => exact ⟨_, _, .pulseReset⟩
  | halfTick => exact ⟨_, _, .halfTick⟩
  | step => exact ⟨_, _, .step⟩
  | run budget =>
    obtain ⟨k, stops⟩ := m.exists_stopsAfter budget
    exact ⟨_, _, .run stops⟩

end Machine

namespace Computer

variable {ω : Type} (see : ω → Event → ω) {c : Computer} {call : Call} {t : Moment}
  {report : Option RunReport}

theorem foldl_recorded_eq (k : Config) (events : List Event) (history : Array Snapshot) :
    events.foldl (recorded k) history =
      history ++ k.pictures (events.filterMap Event.completed?) := by
  cases records : k.recordHistory with
  | true => rw [foldl_recorded records, Config.pictures, if_pos records]
  | false =>
    have still : recorded k = fun h _ => h := by
      funext h e
      cases e <;> simp [recorded, records]
    simp [still, Config.pictures, records]

theorem powerOnHistory_eq (m : Machine) (k : Config) :
    powerOnHistory m k = (#[] : Array Snapshot) ++ k.pictures [m.starting] := by
  simp only [powerOnHistory, Config.pictures]
  split <;> rfl

theorem perform_of_serves (h : c.machine.Serves call t report) (w : ω) :
    (c.perform see w call).1 =
      { machine := t.machine
        config := c.config
        history := c.carried call ++ c.config.pictures t.recording } := by
  cases h with
  | reset image =>
    simp only [perform, reset, carried, powerOnHistory_eq]
    rfl
  | pulseReset =>
    simp [perform, pulseReset, carried, Moment.recording, Config.pictures]
  | halfTick =>
    simp only [perform, halfTick, adopt, Machine.watchedHalfTick_eq, Moment.seen,
      foldl_watch_history, foldl_recorded_eq]
    rfl
  | step =>
    simp only [perform, step, adopt, Machine.step_eq, Moment.seen, foldl_watch_history,
      foldl_recorded_eq]
    rfl
  | @run budget k stops =>
    simp only [perform, run, adopt, Machine.run, Machine.runOn_eq _ stops]
    cases (c.machine.halfTicks k).fault with
    | some f =>
      simp only [foldl_watch_history, foldl_recorded_eq]
      rfl
    | none =>
      cases (c.machine.halfTicks k).machine.halted <;>
        simp only [if_true, Bool.false_eq_true, if_false, watch, recorded, foldl_watch_history,
          foldl_recorded_eq] <;>
        rfl

theorem reply_of_serves (h : c.machine.Serves call t report) (w : ω) :
    c.reply see w call = t.result.map fun _ => report := by
  cases h with
  | reset image => rfl
  | pulseReset => rfl
  | halfTick => rfl
  | step => simp only [reply, result_step]
  | @run budget k stops =>
    simp only [reply, run, adopt, Machine.run, Machine.runOn_eq _ stops, Moment.result]
    cases (c.machine.halfTicks k).fault with
    | some f => rfl
    | none => simp [Except.map]

theorem entry_of_serves (h : c.machine.Serves call t report) (w : ω) :
    c.entry see w call =
      { reply := t.result.map fun _ => report
        snapshots := c.config.pictures t.recording } := by
  simp [entry, reply_of_serves see h, perform_of_serves see h]

theorem perform_config (c : Computer) (w : ω) (call : Call) :
    (c.perform see w call).1.config = c.config := by
  cases call <;> rfl

theorem performAll_config (c : Computer) (w : ω) (calls : List Call) :
    (c.performAll see w calls).1.config = c.config := by
  induction calls generalizing c w with
  | nil => rfl
  | cons call calls ih => exact (ih _ _).trans (perform_config see c w call)

/-- A watcher takes in the events of the run, and nothing else but the report of a halt. -/
theorem watcher_of_serves (unmoved : ∀ w k reason, see w (.halted k reason) = w)
    (h : c.machine.Serves call t report) (passes : call.passesTime = true) (w : ω) :
    (c.perform see w call).2.1 = t.events.foldl see w := by
  cases h with
  | reset image => cases passes
  | pulseReset => cases passes
  | halfTick => exact foldl_watch _ _ _ _
  | step =>
    rw [perform, step, adopt, Machine.step_eq]
    exact foldl_watch _ _ _ _
  | @run budget k stops =>
    simp only [perform, run, adopt, Machine.run, Machine.runOn_eq _ stops]
    cases (c.machine.halfTicks k).fault with
    | some f => exact foldl_watch _ _ _ _
    | none =>
      cases (c.machine.halfTicks k).machine.halted with
      | false => exact foldl_watch _ _ _ _
      | true =>
        simp only [if_true, watch, unmoved]
        exact foldl_watch _ _ _ _

/-- A host that answers system calls receives those of the run. -/
theorem host_of_serves (answer : ω → SystemCall → Memory → ω) (h : c.machine.Serves call t report)
    (w : ω) : (c.perform (answering answer) w call).2.1 = answered answer w t.requests := by
  have answers (passes : call.passesTime = true) :
      (c.perform (answering answer) w call).2.1 = answered answer w t.requests := by
    rw [watcher_of_serves _ (fun _ _ _ => rfl) h passes, foldl_answering, Moment.requests]
  cases h with
  | reset image => rfl
  | pulseReset => rfl
  | halfTick => exact answers rfl
  | step => exact answers rfl
  | run stops => exact answers rfl

end Computer

/-! ## Computers on like machines -/

/-- Snapshots that two configurations keep of like machines. -/
def Snapshot.Of (R : Machine → Machine → Prop) (k k' : Config) (s s' : Snapshot) : Prop :=
  ∃ m n, R m n ∧ s = m.snapshot k.window ∧ s' = n.snapshot k'.window

variable {R : Machine → Machine → Prop}

theorem Config.pictures_alike {k k' : Config} (records : k.recordHistory = k'.recordHistory)
    {ms ns : List Machine} (h : List.Forall₂ R ms ns) :
    List.Forall₂ (Snapshot.Of R k k') (k.pictures ms) (k'.pictures ns) := by
  simp only [pictures, records]
  split
  · rw [List.forall₂_map_left_iff, List.forall₂_map_right_iff]
    exact h.imp fun m n alike => ⟨m, n, alike, rfl, rfl⟩
  · exact .nil

/-- The same reply, and, if both keep snapshots or neither does, snapshots of like machines. -/
structure Computer.Entry.Alike (R : Machine → Machine → Prop) (k k' : Config) (e e' : Entry) :
    Prop where
  reply : e.reply = e'.reply
  snapshots : k.recordHistory = k'.recordHistory →
    List.Forall₂ (Snapshot.Of R k k') e.snapshots e'.snapshots

namespace Machine.Likeness

open Computer

theorem serves (like : Likeness R) {m n : Machine} (alike : R m n) {call : Call} {t : Moment}
    {report : Option RunReport} (h : m.Serves call t report) :
    ∃ u, n.Serves call u report ∧ t.Alike R u := by
  cases h with
  | reset image =>
    exact ⟨_, .reset image, like.refl _, rfl, List.forall₂_same.2 fun _ _ => like.refl _, rfl⟩
  | pulseReset => exact ⟨_, .pulseReset, like.pulseReset alike, rfl, .nil, rfl⟩
  | halfTick => exact ⟨_, .halfTick, like.halfTick alike⟩
  | step => exact ⟨_, .step, like.instruct alike⟩
  | @run budget k stops =>
    have runs := like.halfTicks k alike
    have halted : (m.halfTicks k).machine.halted = (n.halfTicks k).machine.halted := by
      rw [Machine.halted, like.sequencer runs.machine, Machine.halted]
    rw [halted]
    exact ⟨_, .run (like.stopsAfter alike stops), runs⟩

variable {ω ω' : Type} {c c' : Computer} (see : ω → Event → ω) (see' : ω' → Event → ω')

/-! ### One call -/

theorem perform (like : Likeness R) (alike : R c.machine c'.machine) (w : ω) (w' : ω')
    (call : Call) :
    R (c.perform see w call).1.machine (c'.perform see' w' call).1.machine := by
  obtain ⟨t, report, serves⟩ := c.machine.exists_serves call
  obtain ⟨u, serves', runs⟩ := like.serves alike serves
  rw [perform_of_serves see serves, perform_of_serves see' serves']
  exact runs.machine

theorem entry (like : Likeness R) (alike : R c.machine c'.machine) (w : ω) (w' : ω')
    (call : Call) :
    Entry.Alike R c.config c'.config (c.entry see w call) (c'.entry see' w' call) := by
  obtain ⟨t, report, serves⟩ := c.machine.exists_serves call
  obtain ⟨u, serves', runs⟩ := like.serves alike serves
  rw [entry_of_serves see serves, entry_of_serves see' serves', Moment.result, runs.fault,
    ← Moment.result]
  exact ⟨rfl, fun records => Config.pictures_alike records runs.recording⟩

theorem answer (like : Likeness R) (alike : R c.machine c'.machine)
    (answer : ω → SystemCall → Memory → ω) (w : ω) (call : Call) :
    (c.perform (answering answer) w call).2.1 = (c'.perform (answering answer) w call).2.1 := by
  obtain ⟨t, report, serves⟩ := c.machine.exists_serves call
  obtain ⟨u, serves', runs⟩ := like.serves alike serves
  rw [host_of_serves answer serves, host_of_serves answer serves', runs.requests]

/-! ### Lists of calls -/

/-- Hosts that call computers on like machines see the same, up to likeness, and leave like
machines. -/
theorem transcript (like : Likeness R) (alike : R c.machine c'.machine) (w : ω) (w' : ω')
    (calls : List Call) :
    List.Forall₂ (Entry.Alike R c.config c'.config) (c.transcript see w calls)
        (c'.transcript see' w' calls) ∧
      R (c.performAll see w calls).1.machine (c'.performAll see' w' calls).1.machine := by
  induction calls generalizing c c' w w' with
  | nil => exact ⟨.nil, alike⟩
  | cons call calls ih =>
    obtain ⟨later, last⟩ := ih (like.perform see see' alike w w' call)
      (c.perform see w call).2.1 (c'.perform see' w' call).2.1
    rw [perform_config, perform_config] at later
    exact ⟨.cons (like.entry see see' alike w w' call) later, last⟩

theorem host (like : Likeness R) (alike : R c.machine c'.machine)
    (answer : ω → SystemCall → Memory → ω) (w : ω) (calls : List Call) :
    (c.performAll (answering answer) w calls).2 =
      (c'.performAll (answering answer) w calls).2 := by
  induction calls generalizing c c' w with
  | nil => rfl
  | cons call calls ih =>
    rw [performAll, performAll, like.answer alike answer w call]
    exact ih (like.perform _ _ alike w w call) _

end Machine.Likeness

end Micro8080
