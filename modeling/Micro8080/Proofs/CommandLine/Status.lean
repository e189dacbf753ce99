import Micro8080.Proofs.CommandLine.Arguments
import Micro8080.Proofs.CommandLine.Streams
import Micro8080.Proofs.Computer.Rest
import Micro8080.Proofs.Computer.Slices

/-! # How a run ends

A run exits with 0 if the machine comes to rest within the budget, with 1 if the tick of a decimal
adjustment comes before that, and with 2 if neither comes in time.  So the image and the budget tell
the status, and they tell what the program prints.  Snapshots, labels and more log output are for
those who watch, and change neither (`run_status`).

The key is that a run is the half-ticks of its machine up to where it stops
(`Machine.StopsAfter`), whoever watches, and that what a station holds afterwards is told by the
events of these half-ticks (`exists_holds_runProgram`).
-/

namespace Micro8080

/-! ## Endings -/

namespace Machine

variable {m : Machine} {k n : Nat}

/-- The machine comes to rest within `n` half-ticks, at a halt or at an opcode without a meaning. -/
def HaltsWithin (m : Machine) (n : Nat) : Prop :=
  ∃ k ≤ n,
    let t := m.halfTicks k
    t.fault = none ∧ t.machine.halted = true ∧
      (Instruction.decode t.machine.opcode = .halt ∨
        Instruction.decode t.machine.opcode = .unimplemented t.machine.opcode)

/-- One of the first `n` half-ticks is the tick of a decimal adjustment, and no halt comes before
it. -/
def AdjustsWithin (m : Machine) (n : Nat) : Prop :=
  ∃ k < n,
    let t := m.halfTicks k
    t.fault = none ∧ t.machine.clock.phase = .tick ∧ t.machine.sequencer.stage = 3 ∧
      t.machine.opcode = 0x27 ∧ ¬ m.HaltsWithin k

/-- What the program asks to have printed in `k` half-ticks. -/
def printed (m : Machine) (k : Nat) : List UInt8 :=
  (m.halfTicks k).requests.flatMap fun r => Console.printed r.1 r.2

theorem running_halfTicks (running : m.fault = none) (ok : (m.halfTicks k).fault = none) :
    (m.halfTicks k).machine.fault = none := by
  induction k generalizing m with
  | zero => exact running
  | succ k ih =>
    rw [halfTicks] at ok ⊢
    obtain ⟨now, rest⟩ := Moment.fault_of_andThen ok
    rw [Moment.machine_andThen_of_ok now]
    exact ih (halfTick_keeps now).2.1 rest

theorem Oriented.haltsWithin (h : m.Oriented) (le : k ≤ n) (ok : (m.halfTicks k).fault = none)
    (rests : (m.halfTicks k).machine.halted = true) : m.HaltsWithin n := by
  have oriented : (m.halfTicks k).machine.Oriented := invariant_oriented.halfTicks k h
  exact ⟨k, le, ok, rests,
    (Instruction.halts_decode_iff _).1 (oriented.halted_iff.1 rests).2⟩

theorem StopsAfter.haltsWithin_iff (h : m.StopsAfter n k) (oriented : m.Oriented) :
    m.HaltsWithin n ↔ (m.halfTicks k).fault = none ∧ (m.halfTicks k).machine.halted = true := by
  constructor
  · rintro ⟨j, le, ok, rests, -⟩
    have later : k ≤ j := by
      by_contra before
      have going := (h.busy j (Nat.lt_of_not_le before)).2
      rw [rests] at going
      cases going
    have clean := fault_of_le ok later
    refine ⟨clean, ?_⟩
    rcases h.stops with spent | fails | halts
    · rwa [Nat.le_antisymm later (spent ▸ le)]
    · exact absurd clean fails
    · exact halts
  · rintro ⟨ok, rests⟩
    exact oriented.haltsWithin h.le ok rests

theorem StopsAfter.adjustsWithin_iff (h : m.StopsAfter n k) (oriented : m.Oriented)
    (running : m.fault = none) (line : m.resetPending = false) :
    m.AdjustsWithin n ↔ (m.halfTicks k).fault ≠ none := by
  have refused (j : Nat) (ok : (m.halfTicks j).fault = none) (f : Fault) :=
    (invariant_oriented.halfTicks j oriented).coherent.halfTick_fault_iff
      (running_halfTicks running ok) (clock_halfTicks line ok).2 f
  constructor
  · rintro ⟨j, lt, ok, phase, stage, opcode, first⟩ clean
    rcases Nat.lt_or_ge j k with before | past
    · have next := fault_of_le clean before
      rw [halfTicks_succ, Moment.fault_andThen_of_ok ok,
        (refused j ok (.unsupportedOperation .daa)).2 ⟨rfl, phase, stage, opcode⟩] at next
      cases next
    · rcases h.stops with spent | fails | halts
      · omega
      · exact fails clean
      · exact first (oriented.haltsWithin past clean halts)
  · intro fails
    obtain ⟨f, raised⟩ := Option.ne_none_iff_exists'.1 fails
    cases k with
    | zero => cases raised
    | succ j =>
      have ok := (h.busy j (Nat.lt_succ_self j)).1
      rw [halfTicks_succ, Moment.fault_andThen_of_ok ok] at raised
      obtain ⟨-, phase, stage, opcode⟩ := (refused j ok f).1 raised
      refine ⟨j, h.le, ok, phase, stage, opcode, ?_⟩
      rintro ⟨i, le, -, rests, -⟩
      have going := (h.busy i (Nat.lt_succ_of_le le)).2
      rw [rests] at going
      cases going

theorem Ready.haltsWithin_seven (h : m.Ready) (oriented : m.Oriented) (going : m.halted = false)
    (halts : m.programState.instruction.halts = true) :
    m.HaltsWithin 7 ∧ ¬ m.HaltsWithin 6 ∧ ¬ m.AdjustsWithin 6 := by
  obtain ⟨decided, rests, -, busy⟩ := h.asks
  have spent : m.StopsAfter 6 6 := ⟨Nat.le_refl 6, (busy going).mono (by decide), .inl rfl⟩
  have clean : (m.halfTicks 6).fault = none := fault_of_le decided (by decide)
  refine ⟨oriented.haltsWithin (Nat.le_refl 7) decided (rests.trans halts), ?_, ?_⟩
  · rw [spent.haltsWithin_iff oriented, (busy going 6 (by decide)).2]
    exact fun early => Bool.false_ne_true early.2
  · rw [spent.adjustsWithin_iff oriented h.running h.line]
    exact not_not_intro clean

end Machine

/-! ## Runs under a watcher -/

/-- The last events of a run with a budget. -/
def Moment.closing (t : Moment) (k : Nat) : List Event :=
  match t.fault with
  | some _ => []
  | none => if t.machine.halted then [.halted k t.machine.haltReason] else []

theorem Computer.run_seen {ω : Type} (see : ω → Event → ω) {c : Computer} {n k : Nat}
    (h : c.machine.StopsAfter n k) (w : ω) :
    let t := c.machine.halfTicks k
    c.run see n w =
      (c.after t, (t.events ++ t.closing k).foldl see w,
        t.result.map fun _ => { halfTicks := k, halted := t.machine.halted }) := by
  intro t
  have left : (c.run see n w).1 = c.after t := perform_of_serves see (.run h) w
  refine Prod.ext left ?_
  simp only [run, adopt, Machine.run, Machine.runOn_eq _ h, Nat.zero_add, Moment.result,
    Moment.closing, List.foldl_append, t]
  cases (c.machine.halfTicks k).fault with
  | some f => simp only [foldl_watch]; rfl
  | none => cases (c.machine.halfTicks k).machine.halted <;> simp [foldl_watch, watch, Except.map]

theorem flatMap_printed (events : List Event) :
    events.flatMap Event.printed =
      (events.filterMap Event.request?).flatMap fun r => Console.printed r.1 r.2 := by
  induction events with
  | nil => rfl
  | cons e events ih =>
    rw [List.flatMap_cons, ih]
    cases e <;> rfl

end Micro8080

namespace Micro8080.CommandLine

/-! ## Runs of a program -/

/-- The exit status of a run. -/
def exitStatus (t : Moment) : Nat :=
  match t.fault with
  | some _ => 1
  | none => if t.machine.halted then 0 else 2

theorem exitStatus_iff (t : Moment) :
    (exitStatus t = 0 ↔ t.fault = none ∧ t.machine.halted = true) ∧
    (exitStatus t = 1 ↔ t.fault ≠ none) ∧
    (exitStatus t = 2 ↔
      ¬ (t.fault = none ∧ t.machine.halted = true) ∧ ¬ t.fault ≠ none) := by
  rw [exitStatus]
  cases t.fault with
  | some f => simp
  | none => cases t.machine.halted <;> simp

/-- What is said of a run of `k` half-ticks. -/
def saidOf (f : Log.Filter) (t : Moment) (k : Nat) : List String :=
  (t.events ++ t.closing k).flatMap (eventLines f) ++
    (t.fault.map (faultText t.machine)).toList

theorem printed_closing (t : Moment) (k : Nat) :
    (t.closing k).flatMap Event.printed = [] := by
  rw [Moment.closing]
  repeat' split
  all_goals rfl

/-- The events of a run leave what they print and what is said of them. -/
theorem Station.Holds.run {s : Station} {f : Log.Filter} {toErr : Bool} {lines : List String}
    (h : s.Holds f toErr [] lines []) (m : Machine) (k : Nat) :
    let t := m.halfTicks k
    ((t.events ++ t.closing k).foldl Station.see s).Holds f toErr (m.printed k)
      (lines ++ (t.events ++ t.closing k).flatMap (eventLines f)) [] := by
  intro t
  have all := h.seeAll (t.events ++ t.closing k)
  rwa [List.flatMap_append, printed_closing, List.append_nil, List.nil_append,
    flatMap_printed] at all

/-- A run leaves its status, the bytes that the program prints, and what is said of it.  The results
do not depend on labels or on the log. -/
theorem exists_holds_runProgram {c : Computer} {n k : Nat} (json : Bool)
    (h : c.machine.StopsAfter n k) :
    ∃ results, ∀ (a : Arguments) (s : Station) (f : Log.Filter) (lines : List String),
      a.json = json → a.limit.getD c.config.runBudget = n → s.Holds f json [] lines [] →
        (runProgram a c s).2 = exitStatus (c.machine.halfTicks k) ∧
        (runProgram a c s).1.Holds f json (c.machine.printed k)
          (lines ++ saidOf f (c.machine.halfTicks k) k) results := by
  have run (s : Station) := Computer.run_seen Station.see h s
  dsimp only at run
  cases fault : (c.machine.halfTicks k).fault with
  | some e =>
    refine ⟨[], fun a s f lines _ budget holds => ?_⟩
    have ran := (holds.run c.machine k).complain (faultText (c.machine.halfTicks k).machine e)
    simp only [runProgram, budget, run, Moment.result, fault, Except.map, exitStatus, saidOf,
      Option.map_some, Option.toList_some, ← List.append_assoc]
    exact ⟨trivial, ran⟩
  | none =>
    have said (f : Log.Filter) (lines : List String) :
        lines ++ saidOf f (c.machine.halfTicks k) k = lines ++ ((c.machine.halfTicks k).events ++
          (c.machine.halfTicks k).closing k).flatMap (eventLines f) := by
      rw [saidOf, fault, Option.map_none, Option.toList_none, List.append_nil]
    cases json with
    | true =>
      constructor
      intro a s f lines json budget holds
      have ran := holds.run c.machine k
      simp only [runProgram, budget, run, Moment.result, fault, Except.map, exitStatus, said, json,
        if_true]
      exact ⟨rfl, ran.printLine _⟩
    | false =>
      constructor
      intro a s f lines json budget holds
      have ran := holds.run c.machine k
      simp only [runProgram, budget, run, Moment.result, fault, Except.map, exitStatus, said, json,
        Bool.false_eq_true, if_false]
      exact ⟨rfl, (ran.printLine _).printLine _⟩

/-! ## Requests for a run -/

/-- The arguments ask for a run of an image with a budget.  The image can be read, and so can the
labels if there are any. -/
structure Asks (files : Files) (args : List String) (a : Arguments) (image : Array UInt8)
    (n : Nat) : Prop where
  request : Request.ofArguments args = .ok (.carryOut a)
  runs : a.command = .run
  budget : a.limit.getD 2000 = n
  image : files a.input = .ok ⟨image⟩
  labels : ∀ path, a.labels = some path → ∃ labels, readLabels files path = .ok labels

variable {files : Files} {args : List String} {a : Arguments} {image : Array UInt8} {n : Nat}

theorem Asks.exists_given (h : Asks files args a image n) (fits : image.size ≤ Memory.capacity) :
    ∃ program, Given files a program ∧ program.image = image := by
  cases named : a.labels with
  | none => exact ⟨⟨image, [], fits⟩, ⟨h.image, by rw [named]⟩, rfl⟩
  | some path =>
    obtain ⟨labels, read⟩ := h.labels path named
    exact ⟨⟨image, labels, fits⟩, ⟨h.image, by rw [named]; exact read⟩, rfl⟩

theorem ofImage_of_fits (k : Config) (fits : image.size ≤ Memory.capacity) :
    Computer.ofImage k image = .ok ((Computer.new k).reset image).1 := by
  simp only [Computer.ofImage, Computer.reset, Machine.reset_eq_powerOn,
    Machine.powerOn_of_fits fits]
  rfl

theorem Asks.execute_eq (h : Asks files args a image n) (fits : image.size ≤ Memory.capacity)
    (logFilter : String) :
    let (s, status) := runProgram a ((Computer.new { recordHistory := a.json }).reset image).1
      (Station.ofArguments a logFilter)
    execute files logFilter args =
      { out := s.console.sink.out, err := s.console.sink.err, status } := by
  obtain ⟨program, given, rfl⟩ := h.exists_given fits
  have executed := execute_of_given h.request given logFilter
  simpa only [perform, h.runs, prepare, ofImage_of_fits _ program.fits] using executed

/-- The status of a run is 0 if the machine comes to rest within the budget, 1 if the tick of a
decimal adjustment comes within the budget before any rest, and 2 otherwise.  Neither the status nor
the bytes that the program prints depend on how the run is shown. -/
theorem run_status (image : Array UInt8) (fits : image.size ≤ Memory.capacity) (n : Nat) :
    let m := (Machine.powerOn image).1
    ∃ (status : Nat) (printed : List UInt8) (results : Bool → List String),
      (status = 0 ↔ m.HaltsWithin n) ∧ (status = 1 ↔ m.AdjustsWithin n) ∧
      (status = 2 ↔ ¬ m.HaltsWithin n ∧ ¬ m.AdjustsWithin n) ∧
      (∃ k, m.StopsAfter n k ∧ printed = m.printed k) ∧
      ∀ verbosity logFilter, ∃ lines, ∀ files args a,
        Asks files args a image n → a.verbosity = verbosity →
          (execute files logFilter args).status = status ∧
          Streams a.json printed lines (results a.json) (execute files logFilter args).out
            (execute files logFilter args).err := by
  intro m
  obtain ⟨k, stops⟩ := m.exists_stopsAfter n
  let c (json : Bool) := ((Computer.new { recordHistory := json }).reset image).1
  choose results outcome using fun json => exists_holds_runProgram (c := c json) json stops
  have oriented : m.Oriented := Machine.invariant_oriented.powerOn image
  have halts := stops.haltsWithin_iff oriented
  have adjusts := stops.adjustsWithin_iff oriented (by simp only [m, Machine.powerOn_of_fits fits])
    (by simp only [m, Machine.powerOn_of_fits fits])
  have status := exitStatus_iff (m.halfTicks k)
  rw [← halts, ← adjusts] at status
  obtain ⟨zero, one, two⟩ := status
  refine ⟨exitStatus (m.halfTicks k), m.printed k, results, zero, one, two, ⟨k, stops, rfl⟩, ?_⟩
  intro verbosity logFilter
  obtain ⟨f, lines, start⟩ := exists_holds_ofArguments verbosity logFilter
  refine ⟨lines ++ saidOf f (m.halfTicks k) k, fun files args a asks same => ?_⟩
  have executed := asks.execute_eq fits logFilter
  obtain ⟨status, holds⟩ := outcome a.json a _ f lines rfl asks.budget (start a same)
  dsimp only at executed
  rw [executed]
  exact ⟨status, holds.terminal.streams⟩

/-- A halt takes seven half-ticks.  They are enough, under `--json` as well, and six are not. -/
theorem run_status_at_halt :
    let files : Files := fun _ => .ok ⟨#[0x76]⟩
    (execute files "" ["run", "prog.bin", "-m", "7"]).status = 0 ∧
    (execute files "" ["run", "prog.bin", "-m", "7", "--json"]).status = 0 ∧
    (execute files "" ["run", "prog.bin", "-m", "6"]).status = 2 := by
  intro files
  have any (image : Array UInt8) (fits : image.size ≤ 2048)
      (first : (Instruction.decode (image[0]?.getD 0)).halts = true) :=
    (Machine.ready_powerOn image).haltsWithin_seven (Machine.invariant_oriented.powerOn image)
      (Computer.fresh_reset (.new {}) image).2
      ((congrArg Instruction.halts (Computer.instruction_reset (.new {}) fits)).trans first)
  obtain ⟨halts, early, clean⟩ := any #[0x76] (by decide) rfl
  obtain ⟨_, _, _, zero, -, -, -, enough⟩ := run_status #[0x76] (by decide) 7
  obtain ⟨_, same⟩ := enough 0 ""
  obtain ⟨_, _, _, -, -, two, -, short⟩ := run_status #[0x76] (by decide) 6
  obtain ⟨_, same'⟩ := short 0 ""
  have path : Spells .run ["prog.bin"] (.input "prog.bin") := .input (by decide)
  have budget (text : String) (n : Nat) (value : number? text = some n) :
      Spells .run ["-m", text] (.limit n) := .limit (.max rfl (.inl rfl)) value
  have json : Spells .run ["--json"] .json := .json (.json (.inl rfl) (.inr rfl))
  refine ⟨?_, ?_, ?_⟩
  · have request : Request.ofArguments ["run", "prog.bin", "-m", "7"] = _ :=
      ofArguments_of_reads rfl (.cons path (.cons (budget "7" 7 (by decide)) .nil)) rfl
    rw [(same files _ _ ⟨request, rfl, rfl, rfl, nofun⟩ rfl).1]
    exact zero.2 halts
  · have request : Request.ofArguments ["run", "prog.bin", "-m", "7", "--json"] = _ :=
      ofArguments_of_reads rfl
        (.cons path (.cons (budget "7" 7 (by decide)) (.cons json .nil))) rfl
    rw [(same files _ _ ⟨request, rfl, rfl, rfl, nofun⟩ rfl).1]
    exact zero.2 halts
  · have request : Request.ofArguments ["run", "prog.bin", "-m", "6"] = _ :=
      ofArguments_of_reads rfl (.cons path (.cons (budget "6" 6 (by decide)) .nil)) rfl
    rw [(same' files _ _ ⟨request, rfl, rfl, rfl, nofun⟩ rfl).1]
    exact two.2 ⟨early, clean⟩

end Micro8080.CommandLine
