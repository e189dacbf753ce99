import Micro8080.Proofs.Computer.Transcript

/-! # Observation

What a computer records, and who listens to it, has no influence on what it does.  Two computers
that get the same calls are in the same state after each of them, and their hosts get the same
replies, whatever the configurations and the hosts are (`observation_changes_nothing`).

The histories are accounted for by the machines that the half-ticks show.  These are themselves the
record of a host, one that keeps every machine (`collected`), and a history is the snapshots of them
through the window of its computer (`history_performAll`).
-/

namespace Micro8080

/-! ## Windows -/

theorem Memory.size_window (m : Memory) (n : Nat) : (m.window n).size = min n 2048 := by
  simp [window]

theorem Memory.window_prefix (m : Memory) (n : Nat) :
    (m.window n).toList <+: m.bytes.toArray.toList := by
  simp only [window, Array.toList_extract, List.extract_eq_take_drop, List.drop_zero]
  exact List.take_prefix _ _

theorem Config.pictures_append (k : Config) (ms ns : List Machine) :
    k.pictures (ms ++ ns) = k.pictures ms ++ k.pictures ns := by
  simp only [pictures]
  split
  · exact List.map_append
  · rfl

namespace Computer

/-! ## The machines behind a history -/

/-- A host that keeps the machine of every half-tick that is done. -/
def collecting (ms : List Machine) : Event → List Machine
  | .completed m => ms ++ [m]
  | _ => ms

/-- The machines that a call begins with.  A step begins without any, and a reset with the machine
that it switches on. -/
def collection (ms : List Machine) : Call → List Machine
  | .reset image => [(Machine.powerOn image).1.starting]
  | .step => []
  | .pulseReset | .halfTick | .run _ => ms

/-- The machines that were shown since the last reset or the start of the last step. -/
def collected (c : Computer) (ms : List Machine) : List Call → List Machine
  | [] => ms
  | call :: calls =>
    let (c', ms', _) := c.perform collecting (collection ms call) call
    collected c' ms' calls

variable {ω ω' : Type} (see : ω → Event → ω) (see' : ω' → Event → ω') {c d : Computer}
  {ms : List Machine}

theorem foldl_collecting (events : List Event) (ms : List Machine) :
    events.foldl collecting ms = ms ++ events.filterMap Event.completed? := by
  induction events generalizing ms with
  | nil => exact (List.append_nil ms).symm
  | cons e events ih => cases e <;> simp [collecting, Event.completed?, ih, List.filterMap_cons]

theorem collecting_of_serves {call : Call} {t : Moment} {report : Option RunReport}
    (h : c.machine.Serves call t report) (passes : call.passesTime = true) (ms : List Machine) :
    (c.perform collecting ms call).2.1 = ms ++ t.recording := by
  rw [watcher_of_serves collecting (fun _ _ _ => rfl) h passes, foldl_collecting, Moment.recording]

/-- A history stays the snapshots of the machines behind it.  These can be collected at any other
computer that is in the same state. -/
theorem history_of_collection (same : c.machine = d.machine)
    (before : c.history.toList = c.config.pictures ms) (w : ω) (call : Call) :
    (c.perform see w call).1.history.toList =
      c.config.pictures (d.perform collecting (collection ms call) call).2.1 := by
  obtain ⟨t, report, serves⟩ := c.machine.exists_serves call
  have collects := collecting_of_serves (c := d) (same ▸ serves)
  rw [perform_of_serves see serves, Array.toList_appendList]
  cases serves with
  | reset image => rfl
  | pulseReset => simp [carried, before, perform, collection, Moment.recording, Config.pictures]
  | halfTick => rw [collects rfl, Config.pictures_append, collection, carried, before]
  | step => rw [collects rfl, collection, List.nil_append]; rfl
  | run stops => rw [collects rfl, Config.pictures_append, collection, carried, before]

theorem history_performAll (same : c.machine = d.machine)
    (before : c.history.toList = c.config.pictures ms) (w : ω) (calls : List Call) :
    (c.performAll see w calls).1.history.toList = c.config.pictures (d.collected ms calls) := by
  induction calls generalizing c d ms w with
  | nil => exact before
  | cons call calls ih =>
    have next := Machine.likeness_eq.perform see collecting same w (collection ms call) call
    have after := history_of_collection see same before w call
    rw [← perform_config see c w call] at after ⊢
    exact ih next after _

/-! ## Two computers -/

theorem history_new (k : Config) :
    (new k).history.toList = k.pictures [({} : Machine).starting] := by
  rw [new, powerOnHistory_eq, Array.toList_appendList, List.nil_append]

/-- Snapshots of a machine, taken through the windows of two configurations.  They differ in how
much of memory they hold, and in nothing else. -/
structure Views (m : Machine) (k k' : Config) (s s' : Snapshot) : Prop where
  taken : s = m.snapshot k.window
  taken' : s' = m.snapshot k'.window
  same : { s with memory := s'.memory } = s'
  size : s.memory.size = min k.window 2048
  size' : s'.memory.size = min k'.window 2048
  ram : s.memory.toList <+: m.memory.bytes.toArray.toList
  ram' : s'.memory.toList <+: m.memory.bytes.toArray.toList

theorem views_snapshot (m : Machine) (k k' : Config) :
    Views m k k' (m.snapshot k.window) (m.snapshot k'.window) :=
  ⟨rfl, rfl, rfl, m.memory.size_window _, m.memory.size_window _, m.memory.window_prefix _,
    m.memory.window_prefix _⟩

theorem history_of_records (same : c.machine = d.machine) (records : c.config.recordHistory = true)
    (before : c.history.toList = c.config.pictures ms) (w : ω) (calls : List Call) :
    (c.performAll see w calls).1.history.toList =
      (d.collected ms calls).map fun m => m.snapshot c.config.window := by
  rw [history_performAll see same before, Config.pictures, if_pos records]

/-- Two computers that get the same calls do the same, whatever they record and whoever listens.
After any calls their machines are equal in every part, the calls so far have returned the same, and
where both record, the histories show the same machines, through a window each. -/
theorem observation_changes_nothing (k k' : Config) (w : ω) (w' : ω') (calls : List Call) :
    let c := ((new k).performAll see w calls).1
    let c' := ((new k').performAll see' w' calls).1
    let ms := (new k).collected [({} : Machine).starting] calls
    c.machine = c'.machine ∧
    ((new k).transcript see w calls).map Entry.reply =
      ((new k').transcript see' w' calls).map Entry.reply ∧
    (k.recordHistory = true → k'.recordHistory = true →
      c.history.size = c'.history.size ∧
      ∀ (i : Nat) (s s' : Snapshot), c.history[i]? = some s → c'.history[i]? = some s' →
        ∃ m : Machine, ms[i]? = some m ∧ Views m k k' s s') := by
  intro c c' ms
  have same : (new k).machine = (new k').machine := rfl
  obtain ⟨entries, machines⟩ := Machine.likeness_eq.transcript see see' same w w' calls
  refine ⟨machines, ?_, fun records records' => ?_⟩
  · rw [← List.forall₂_eq_eq_eq, List.forall₂_map_left_iff, List.forall₂_map_right_iff]
    exact entries.imp fun _ _ alike => alike.reply
  · have shows : c.history.toList = ms.map fun m => m.snapshot k.window :=
      history_of_records see rfl records (history_new k) w calls
    have shows' : c'.history.toList = ms.map fun m => m.snapshot k'.window :=
      history_of_records see' same.symm records' (history_new k') w' calls
    refine ⟨?_, fun i s s' at_i at_i' => ?_⟩
    · rw [← Array.length_toList, ← Array.length_toList, shows, shows', List.length_map,
        List.length_map]
    · rw [← Array.getElem?_toList, shows, List.getElem?_map, Option.map_eq_some_iff] at at_i
      rw [← Array.getElem?_toList, shows', List.getElem?_map] at at_i'
      obtain ⟨m, at_m, rfl⟩ := at_i
      rw [at_m, Option.map_some, Option.some_inj] at at_i'
      subst at_i'
      exact ⟨m, at_m, views_snapshot m k k'⟩

/-- A host that hears nothing, and one that counts the events. -/
theorem observation_changes_nothing_windows :
    let calls : List Call := [.reset #[0x3C], .halfTick, .pulseReset, .run 5, .step]
    let c := ((new { window := 4 }).performAll (fun _ _ => ()) () calls).1
    let c' := ((new { window := 2 }).performAll (fun (n : Nat) _ => n + 1) 0 calls).1
    c.machine = c'.machine ∧ c.history.size = c'.history.size ∧
      ∀ (i : Nat) (s s' : Snapshot), c.history[i]? = some s → c'.history[i]? = some s' →
        s.memory.size = 4 ∧ s'.memory.size = 2 := by
  intro calls c c'
  obtain ⟨machine, -, histories⟩ := observation_changes_nothing (fun _ _ => ())
    (fun (n : Nat) _ => n + 1) { window := 4 } { window := 2 } () 0 calls
  obtain ⟨size, views⟩ := histories rfl rfl
  refine ⟨machine, size, fun i s s' at_i at_i' => ?_⟩
  obtain ⟨m, -, view⟩ := views i s s' at_i at_i'
  exact ⟨view.size, view.size'⟩

end Computer

end Micro8080
