import Micro8080.Proofs.Datapath.Microprogram
import Micro8080.Proofs.Datapath.Period

/-! # One instruction of a machine

An instruction takes a period for each of its words.  `Performs` is the run of these periods, and
says for each which decision it made; what a run does to the datapath is then what its words do, one
after another.  A machine that is `Ready` performs the fetch and the words of the instruction at its
program counter (`Ready.performs`), after which it is ready again.

What the controller sees at stage 3 was committed before the fetch began, so that it does not matter
when the flags of the instruction before were written.
-/

namespace Micro8080

theorem Sequencer.fall_stage {s : Sequencer} (more : s.atLast = false) (small : s.stage < 255) :
    s.fall.stage = s.stage + 1 := by
  simp only [fall, more, Bool.false_eq_true, if_false]
  omega

namespace Machine

open Microcode

variable {m n : Machine}

/-! ## Runs of periods -/

/-- From `m`, periods with the decisions `ds` lead to `n`.  None of them ends an instruction. -/
inductive Passes : Machine → List Decision → Machine → Prop where
  | none (m : Machine) : Passes m [] m
  | more {m n : Machine} {d : Decision} {ds : List Decision} (live : m.Live)
      (decide : m.sequencer.fall.decision m.opcode m.probe = .ok d)
      (supported : d.word.adjusts = false) (more : d.last = false)
      (rest : Passes m.pair.machine ds n) :
      Passes m (d :: ds) n

/-- From `m`, periods with the decisions `ds` lead to `n`.  The last of them, and no other, ends an
instruction. -/
inductive Performs : Machine → List Decision → Machine → Prop where
  | last {m : Machine} {d : Decision} (live : m.Live)
      (decide : m.sequencer.fall.decision m.opcode m.probe = .ok d)
      (supported : d.word.adjusts = false) (last : d.last = true) :
      Performs m [d] m.pair.machine
  | more {m n : Machine} {d : Decision} {ds : List Decision} (live : m.Live)
      (decide : m.sequencer.fall.decision m.opcode m.probe = .ok d)
      (supported : d.word.adjusts = false) (more : d.last = false)
      (rest : Performs m.pair.machine ds n) :
      Performs m (d :: ds) n

theorem Live.pairs_succ (live : m.Live) {d : Decision}
    (decide : m.sequencer.fall.decision m.opcode m.probe = .ok d)
    (supported : d.word.adjusts = false) (k : Nat) :
    (pairs (k + 1) m).fault = (if d.last then none else (pairs k m.pair.machine).fault) ∧
      (pairs (k + 1) m).machine =
        if d.last then m.pair.machine else (pairs k m.pair.machine).machine := by
  obtain ⟨ok, obeyed⟩ := live.obeyed decide supported
  have atLast : m.pair.machine.sequencer.atLast = d.last := by
    rw [obeyed.sequencer]
    rfl
  rw [pairs, Moment.andThen_of_ok ok, atLast]
  cases d.last <;> exact ⟨rfl, rfl⟩

variable {ds : List Decision}

theorem Passes.performs {es : List Decision} {k : Machine} (h : Passes m ds n)
    (rest : Performs n es k) : Performs m (ds ++ es) k := by
  induction h with
  | none => exact rest
  | more live decide supported more _ ih => exact .more live decide supported more (ih rest)

theorem Passes.pairs_fault (h : Passes m ds n) (k : Nat) :
    (pairs (ds.length + k) m).fault = (pairs k n).fault := by
  induction h with
  | none => rw [List.length_nil, Nat.zero_add]
  | @more m n d ds live decide supported more rest ih =>
    have fuel : (d :: ds).length + k = ds.length + k + 1 := by
      rw [List.length_cons]
      omega
    rw [fuel, (live.pairs_succ decide supported _).1, more, ← ih]
    rfl

namespace Performs

theorem pairs_eq (h : Performs m ds n) {k : Nat} (enough : ds.length ≤ k) :
    (pairs k m).fault = none ∧ (pairs k m).machine = n := by
  induction h generalizing k with
  | last live decide supported last =>
    cases k with
    | zero => simp at enough
    | succ k =>
      obtain ⟨fault, machine⟩ := live.pairs_succ decide supported k
      rw [fault, machine, last]
      exact ⟨rfl, rfl⟩
  | more live decide supported more rest ih =>
    cases k with
    | zero => simp at enough
    | succ k =>
      obtain ⟨fault, machine⟩ := live.pairs_succ decide supported k
      rw [fault, machine, more]
      exact ih (by simpa using enough)

theorem datapath_eq (h : Performs m ds n) :
    n.datapath = m.datapath.run (ds.map Decision.word) := by
  induction h with
  | last live decide supported _ =>
    rw [(live.obeyed decide supported).2.datapath]
    rfl
  | more live decide supported _ _ ih =>
    rw [ih, (live.obeyed decide supported).2.datapath]
    rfl

theorem clock_eq (h : Performs m ds n) :
    n.clock.halfTicks = m.clock.halfTicks + 2 * ds.length := by
  induction h with
  | last live decide supported _ => exact (live.obeyed decide supported).2.clock
  | more live decide supported _ _ ih =>
    rw [ih, (live.obeyed decide supported).2.clock, List.length_cons]
    omega

end Performs

/-! ## Between two instructions -/

/-- The machine is live, and its next tock begins a fetch. -/
structure Ready (m : Machine) : Prop extends Live m where
  atLast : m.sequencer.atLast = true

theorem Performs.ready (h : Performs m ds n) : n.Ready := by
  induction h with
  | last live decide supported last =>
    have obeyed := (live.obeyed decide supported).2
    exact ⟨obeyed.live, by rw [obeyed.sequencer]; exact last⟩
  | more _ _ _ _ _ ih => exact ih

theorem Ready.clearSkippedCall (h : m.Ready) :
    { m with sequencer := m.sequencer.clearSkippedCall }.Ready :=
  ⟨⟨h.running, h.line, h.phase, h.sequencer.clearSkippedCall⟩, h.atLast⟩

theorem ready_powerOn (image : Array UInt8) : (powerOn image).1.Ready := by
  simp only [powerOn_eq]
  split
  all_goals exact ⟨⟨rfl, rfl, rfl, Sequencer.coherent_powerOn _⟩, rfl⟩

/-! ## The words of an instruction -/

theorem probe_eq_of_datapath {d : Datapath} (h : m.datapath = d) :
    m.probe =
      { flags := m.alu.flagsOut, pc := d.pc, c := d.c, de := d.de
        operand := Ram.readWord d.memory d.pc } := by
  subst h
  rfl

theorem decides_program {w : ControlWord} {ws : List ControlWord}
    (more : m.sequencer.atLast = false) (fetched : 2 ≤ m.sequencer.stage)
    (runs : ∀ p, haltReason? (.decode m.opcode) p = none)
    (long : m.sequencer.stage = 2 → shortcut (.decode m.opcode) m.probe = none)
    (left : (program (.decode m.opcode)).drop (m.sequencer.stage - 2) = w :: ws) :
    m.sequencer.fall.stage = m.sequencer.stage + 1 ∧ w ∈ program (.decode m.opcode) ∧
      ∃ d, m.sequencer.fall.decision m.opcode m.probe = .ok d ∧ d.word = w ∧
        d.last = ws.isEmpty := by
  have short := program_length_le (.decode m.opcode)
  have length := congrArg List.length left
  rw [List.length_drop, List.length_cons] at length
  have stage := Sequencer.fall_stage more (by omega)
  have word : (program (.decode m.opcode))[m.sequencer.stage + 1 - 3]? = some w := by
    have head := congrArg List.head? left
    rw [List.head?_drop] at head
    have index : m.sequencer.stage + 1 - 3 = m.sequencer.stage - 2 := by omega
    rw [index, head, List.head?_cons]
  have decide := Sequencer.decision_of_own (by omega : 3 ≤ m.sequencer.fall.stage) m.opcode m.probe
  rw [stage, decision_program (runs _) (fun at3 => long (by omega)) word] at decide
  refine ⟨stage, List.mem_of_getElem? word, _, decide, rfl, ?_⟩
  · rw [Bool.eq_iff_iff, beq_iff_eq, List.isEmpty_iff, ← List.length_eq_zero_iff,
      Instruction.lastStage]
    omega

/-- At the beginning or in the middle of a microprogram, a live machine performs what is left. -/
theorem performs_program {ws : List ControlWord} (live : m.Live)
    (more : m.sequencer.atLast = false) (fetched : 2 ≤ m.sequencer.stage)
    (runs : ∀ p, haltReason? (.decode m.opcode) p = none)
    (long : m.sequencer.stage = 2 → shortcut (.decode m.opcode) m.probe = none)
    (left : (program (.decode m.opcode)).drop (m.sequencer.stage - 2) = ws) (nonempty : ws ≠ [])
    (supported : ∀ w ∈ ws, w.adjusts = false) :
    ∃ ds n, Performs m ds n ∧ ds.map Decision.word = ws := by
  -- on the words that are left, which stay those of one program since no word loads the opcode
  induction ws generalizing m with
  | nil => exact absurd rfl nonempty
  | cons w ws ih =>
    obtain ⟨stage, mem, d, decide, rfl, last⟩ := decides_program more fetched runs long left
    have now : d.word.adjusts = false := supported d.word List.mem_cons_self
    cases ws with
    | nil => exact ⟨[d], _, .last live decide now last, rfl⟩
    | cons v vs =>
      have obeyed := (live.obeyed decide now).2
      have opcode : m.pair.machine.opcode = m.opcode := by
        have keeps := congrArg Datapath.opcode obeyed.datapath
        simp only [Datapath.obey, program_keeps_opcode _ _ mem, Bool.false_eq_true,
          if_false] at keeps
        exact keeps
      have next : m.pair.machine.sequencer.stage = m.sequencer.stage + 1 := by
        rw [obeyed.sequencer, ← stage]
        rfl
      have tail : (program (.decode m.pair.machine.opcode)).drop
          (m.pair.machine.sequencer.stage - 2) = v :: vs := by
        have rest := congrArg List.tail left
        rw [List.tail_drop] at rest
        have index : m.sequencer.stage + 1 - 2 = m.sequencer.stage - 2 + 1 := by omega
        rw [next, opcode, index, rest, List.tail_cons]
      obtain ⟨ds, n, performs, words⟩ := ih obeyed.live (by rw [obeyed.sequencer]; exact last)
        (by omega) (by rw [opcode]; exact runs) (fun at2 => absurd at2 (by omega)) tail (by simp)
        fun w mem => supported w (List.mem_cons_of_mem _ mem)
      refine ⟨d :: ds, n, .more live decide now last performs, ?_⟩
      rw [List.map_cons, words]

theorem decides_three (more : m.sequencer.atLast = false) (fetched : m.sequencer.stage = 2) :
    ∃ d, decision m.opcode 3 m.probe = .ok d ∧
      m.sequencer.fall.decision m.opcode m.probe = .ok d := by
  have stage := Sequencer.fall_stage more (by omega)
  rw [fetched] at stage
  obtain ⟨d, decided⟩ := decision_three m.opcode m.probe
  refine ⟨d, decided, ?_⟩
  rw [Sequencer.decision_of_own (by omega), stage, decided]

theorem performs_own (live : m.Live) (more : m.sequencer.atLast = false)
    (fetched : m.sequencer.stage = 2)
    (named : (Instruction.decode m.opcode).operation? ≠ some .daa) :
    ∃ ds n, Performs m ds n ∧
      ds.map Decision.word = ownWords (.decode m.opcode) m.probe := by
  obtain ⟨d, decided, decide⟩ := decides_three more fetched
  have now : d.word.adjusts = false := by
    rw [Bool.eq_false_iff]
    intro asks
    have opcode := ((decision_adjusts_iff decided (by omega)).1 asks).1
    exact named ((operation_decode_eq_daa_iff m.opcode).2 opcode)
  rcases decision_cases decided with
    ⟨reason, halts, rfl⟩ | ⟨-, -, short⟩ | ⟨runs, long, w, word, rfl⟩
  · obtain ⟨none, words⟩ := words_of_halting halts m.probe
    refine ⟨_, _, .last live decide now rfl, ?_⟩
    simp only [ownWords, none, words]
    rfl
  · refine ⟨_, _, .last live decide now (shortcut_word short).1, ?_⟩
    simp only [ownWords, short]
    rfl
  · have words : ∀ w ∈ program (.decode m.opcode), w.adjusts = false := by
      intro w mem
      rw [Bool.eq_false_iff]
      exact fun asks => named (operation_of_adjusts mem asks)
    have nonempty := List.ne_nil_of_length_pos (program_length_pos (.decode m.opcode))
    simp only [ownWords, long rfl]
    exact performs_program live more (by omega) (haltReason?_eq_none runs) (fun _ => long rfl)
      (by rw [fetched]; rfl) nonempty words

theorem Live.fetches (live : m.Live) {k : Nat} (stage : m.sequencer.fall.stage = k) (hk : k < 3) :
    ∃ d, m.sequencer.fall.decision m.opcode m.probe = .ok d ∧ d.last = false ∧
      d.word = fetch.get ⟨k, hk⟩ ∧ d.word.adjusts = false ∧ Obeyed m d m.pair.machine ∧
      m.pair.machine.sequencer.atLast = false ∧ m.pair.machine.sequencer.stage = k := by
  subst stage
  obtain ⟨w, word, decide⟩ := Sequencer.decision_of_fetch hk m.opcode m.probe
  have at_fetch : w ∈ fetch := List.mem_of_getElem? word
  have all : ∀ w ∈ fetch, w.adjusts = false := by decide
  have obeyed := (live.obeyed decide (all w at_fetch)).2
  refine ⟨_, decide, rfl, ?_, all w at_fetch, obeyed, ?_, ?_⟩
  · exact ((List.getElem?_eq_some_iff.1 word).2).symm
  · rw [obeyed.sequencer]
    rfl
  · rw [obeyed.sequencer]
    rfl

def fetched (m : Machine) : Machine := m.pair.machine.pair.machine.pair.machine

/-- A ready machine fetches the opcode at its program counter.  The controller then sees the state
as it was. -/
theorem Ready.fetches (h : m.Ready) :
    ∃ ds, Passes m ds m.fetched ∧
      ds.map Decision.word = fetch ∧ m.fetched.Live ∧ m.fetched.sequencer.atLast = false ∧
      m.fetched.sequencer.stage = 2 ∧ m.fetched.datapath = m.datapath.run fetch ∧
      m.fetched.probe = m.programState.probe := by
  have first : m.sequencer.fall.stage = 0 := by simp [Sequencer.fall, h.atLast]
  obtain ⟨d, decide, more, word, supported, obeyed, atLast, stage⟩ :=
    h.toLive.fetches first (by omega)
  have second := Sequencer.fall_stage atLast (by omega)
  rw [stage] at second
  obtain ⟨d', decide', more', word', supported', obeyed', atLast', stage'⟩ :=
    obeyed.live.fetches second (by omega)
  have third := Sequencer.fall_stage atLast' (by omega)
  rw [stage'] at third
  obtain ⟨d'', decide'', more'', word'', supported'', obeyed'', atLast'', stage''⟩ :=
    obeyed'.live.fetches third (by omega)
  have words : [d, d', d''].map Decision.word = fetch := by
    simp only [List.map_cons, List.map_nil, word, word', word'']
    rfl
  have datapath : m.fetched.datapath = m.datapath.run fetch := by
    rw [fetched, obeyed''.datapath, obeyed'.datapath, obeyed.datapath, ← words]
    rfl
  refine ⟨[d, d', d''], ?_, words, obeyed''.live, atLast'', stage'', datapath, ?_⟩
  · exact .more h.toLive decide supported more
      (.more obeyed.live decide' supported' more'
        (.more obeyed'.live decide'' supported'' more'' (.none _)))
  · -- the controller sees the flags of the tock before, which no word of the fetch writes
    have flags : m.pair.machine.pair.machine.committedFlags = m.committedFlags := by
      have same := congrArg (fun d => d.flags) obeyed'.datapath
      rw [obeyed.datapath, word, word'] at same
      exact same
    rw [probe_eq_of_datapath datapath, fetched, obeyed''.shown, flags, Datapath.run_fetch]
    rfl

theorem decode_of_fetched (fetched : n.datapath = m.datapath.run fetch) :
    Instruction.decode n.opcode = m.programState.instruction := by
  have loaded := congrArg Datapath.opcode fetched
  rw [Datapath.run_fetch] at loaded
  exact congrArg Instruction.decode loaded

/-- A ready machine performs the fetch and the words of the instruction at its program counter. -/
theorem Ready.performs (h : m.Ready) (named : m.programState.instruction.operation? ≠ some .daa) :
    ∃ ds n, Performs m ds n ∧
      ds.map Decision.word =
        fetch ++ ownWords m.programState.instruction m.programState.probe := by
  obtain ⟨ds, passes, words, live, more, stage, datapath, probe⟩ := h.fetches
  have decoded := decode_of_fetched datapath
  obtain ⟨es, k, performs, own⟩ := performs_own live more stage (by rw [decoded]; exact named)
  refine ⟨ds ++ es, k, passes.performs performs, ?_⟩
  rw [List.map_append, words, own, decoded, probe]

/-- The controller decides on these flags at stage 3, after a fetch. -/
def Observes (m : Machine) (f : Flags) : Prop :=
  m.fetched.fault = none ∧ m.fetched.clock.phase = .tock ∧ m.fetched.sequencer.fall.stage = 3 ∧
    ∃ alu, m.fetched.alu.fall m.fetched.sequencer.word m.fetched.bus = .ok alu ∧
      { m.fetched with alu }.probe.flags = f

theorem Ready.observes (h : m.Ready) : m.Observes m.programState.flags := by
  obtain ⟨ds, -, -, live, more, stage, -, probe⟩ := h.fetches
  obtain ⟨alu, fall⟩ := Alu.fall_ok live.sequencer.lawful m.fetched.alu m.fetched.bus
  have next := Sequencer.fall_stage more (by omega)
  rw [stage] at next
  refine ⟨live.running, live.phase, next, alu, fall, ?_⟩
  rw [Machine.probe_eq fall, probe]
  rfl

/-! ## Steps -/

/-- A step of a ready machine does what the instruction at its program counter means, in two
half-ticks for each word. -/
theorem Ready.instruct (h : m.Ready) (named : m.programState.instruction.operation? ≠ some .daa) :
    m.instruct.fault = none ∧ m.instruct.machine.Ready ∧
      m.instruct.machine.programState = m.programState.execute m.programState.instruction ∧
      m.instruct.machine.clock.halfTicks = m.clock.halfTicks +
        2 * (3 + (ownWords m.programState.instruction m.programState.probe).length) := by
  obtain ⟨ds, n, performs, words⟩ := h.clearSkippedCall.performs named
  have length := congrArg List.length words
  rw [List.length_map, List.length_append] at length
  have fuel : ds.length ≤ maxStages := by
    have short := ownWords_length_le m.programState.instruction m.programState.probe
    rw [length]
    exact Nat.add_le_add_left short 3
  obtain ⟨ok, reached⟩ := performs.pairs_eq fuel
  have datapath := performs.datapath_eq
  rw [words, Datapath.run_append] at datapath
  have meaning := m.datapath.run_ownWords named fun op => Instruction.unary_of_decode
  refine ⟨ok, ?_, ?_, ?_⟩
  · exact reached ▸ performs.ready
  · rw [Machine.instruct, reached]
    exact (congrArg Datapath.toProgramState datapath).trans meaning
  · rw [Machine.instruct, reached, performs.clock_eq, length]
    rfl

theorem Ready.instruct_refused (h : m.Ready)
    (named : m.programState.instruction.operation? = some .daa) :
    m.instruct.fault = some (.unsupportedOperation .daa) := by
  obtain ⟨ds, passes, words, live, more, fetched, datapath, -⟩ := h.clearSkippedCall.fetches
  generalize Machine.fetched _ = n at passes live more fetched datapath
  have decoded := decode_of_fetched datapath
  have opcode : n.opcode = 0x27 := by
    rw [← operation_decode_eq_daa_iff, decoded]
    exact named
  obtain ⟨d, decided, decide⟩ := decides_three more fetched
  have refused := live.refused decide ((decision_adjusts_iff decided (by omega)).2 ⟨opcode, rfl⟩)
  have three : ds.length = 3 := by
    rw [← List.length_map, words]
    rfl
  -- a step has fuel for the fetch and for thirteen words after it
  have passed := passes.pairs_fault 13
  have fails : (pairs 13 n).fault = some (.unsupportedOperation .daa) := by
    rw [pairs, Moment.andThen_of_fault refused, refused]
  rw [three, fails] at passed
  exact passed

end Machine

end Micro8080
