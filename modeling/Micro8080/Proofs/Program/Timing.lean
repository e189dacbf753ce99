import Micro8080.Proofs.Machine.Timeline
import Micro8080.Proofs.Program.Step

/-! # Instructions on the timeline

A ready machine that takes half-ticks gets through one instruction after the other, whoever counts
the half-ticks.  Six of them fetch the opcode, the seventh decides, and it is the only one to ask
the host for anything (`Ready.asks`).  An instruction that comes to its end takes two half-ticks for
each of its words (`Ready.spans`), and a step takes exactly these.

The machine rests as soon as a halt is decided, one half-tick before the instruction ends
(`Ready.rests`), and the decimal adjustment fails in that half-tick (`Ready.refuses`).
-/

namespace Micro8080

open Microcode

theorem Sequencer.decision_call {s : Sequencer} {opcode : UInt8} {p : Probe} {d : Decision}
    (h : s.decision opcode p = .ok d) :
    d.call = (if s.stage = 3 then Microcode.request? (.decode opcode) p else none) ∧
      (d.halt = none ∨ d.call = none) := by
  rcases Nat.lt_or_ge s.stage 3 with fetching | own
  · obtain ⟨w, -, e⟩ := decision_of_fetch fetching opcode p
    rw [e] at h
    cases h
    exact ⟨by rw [if_neg (by omega)], .inr rfl⟩
  · rw [decision_of_own own] at h
    exact Microcode.decision_call h

theorem Microcode.halts_of_mem_ownWords {i : Instruction} {p : Probe} {w : ControlWord}
    (mem : w ∈ ownWords i p) : w.halts = i.halts := by
  simp only [ownWords] at mem
  split at mem
  · next d short =>
    rw [List.mem_singleton] at mem
    rw [mem]
    exact halts_of_shortcut short
  · exact halts_of_mem_program mem

namespace ProgramState

/-- How many half-ticks the instruction at the program counter takes. -/
def halfTicks (s : ProgramState) : Nat :=
  2 * (3 + (ownWords s.instruction s.probe).length)

theorem halfTicks_ge (s : ProgramState) : 8 ≤ s.halfTicks := by
  have words : 0 < (ownWords s.instruction s.probe).length := by
    simp only [ownWords]
    split
    · simp
    · exact program_length_pos _
  rw [halfTicks]
  omega

/-- What the instruction at the program counter asks of the host, with memory as it is then. -/
def request? (s : ProgramState) : Option (SystemCall × Ram) :=
  match s.instruction with
  | .call _ =>
    if s.operandWord = 5 then some ({ function := s.c, argument := s.de }, s.memory) else none
  | _ => none

theorem request?_eq (s : ProgramState) :
    s.request? = (Microcode.request? s.instruction s.probe).map fun call => (call, s.memory) := by
  have five : systemVector = 5 := rfl
  have word : s.probe.operand = s.operandWord := rfl
  simp only [request?, Microcode.request?, five, word]
  cases s.instruction
  case call k => by_cases own : s.operandWord = 5 <;> simp only [own, if_true, if_false] <;> rfl
  all_goals rfl

theorem request?_of_halts {s : ProgramState} (halts : s.instruction.halts = true) :
    s.request? = none := by
  simp only [request?]
  split
  · next call => simp [call, Instruction.halts] at halts
  · rfl

end ProgramState

namespace Machine

variable {m n k : Machine} {d : Decision} {ds es : List Decision}

/-! ## Periods -/

/-- From `m`, periods with the decisions `ds` lead to `n`. -/
inductive Periods : Machine → List Decision → Machine → Prop where
  | stay (m : Machine) : Periods m [] m
  | more {m n : Machine} {d : Decision} {ds : List Decision} (live : m.Live)
      (decide : m.sequencer.fall.decision m.opcode m.probe = .ok d)
      (supported : d.word.adjusts = false) (rest : Periods m.pair.machine ds n) :
      Periods m (d :: ds) n

theorem Passes.periods (h : Passes m ds n) : Periods m ds n := by
  induction h with
  | none m => exact .stay m
  | more live decide supported _ _ ih => exact .more live decide supported ih

theorem Performs.periods (h : Performs m ds n) : Periods m ds n := by
  induction h with
  | last live decide supported _ => exact .more live decide supported (.stay _)
  | more live decide supported _ _ ih => exact .more live decide supported ih

theorem requests_announce (m : Machine) (halt : Option HaltReason) (taken : Option SystemCall) :
    (m.announce halt taken).filterMap Event.request? =
      taken.toList.map fun call => (call, m.memory) := by
  rw [announce.eq_def]
  split <;> cases taken <;> rfl

theorem Live.tocks (live : m.Live) (decide : m.sequencer.fall.decision m.opcode m.probe = .ok d) :
    m.halfTick.fault = none ∧ m.halfTick.machine.halted = d.word.halts ∧
      m.halfTick.machine.sequencer.atLast = d.last ∧
      m.halfTick.requests = d.call.toList.map fun call => (call, m.memory) := by
  obtain ⟨_, _, _, _, ok, tocked⟩ := live.tock decide
  refine ⟨ok, by rw [tocked]; rfl, by rw [tocked]; rfl, ?_⟩
  obtain ⟨alu, e, driven, bus, fall, decided, drive, settle⟩ := exists_tock live.sequencer
  have same := decided
  rw [probe_eq fall, decide] at same
  cases same
  -- nothing was left over, so that the host takes what was decided
  have taken : (d.call <|> m.sequencer.pendingCall) = d.call := live.sequencer.takeCall_adopt d
  rw [requests_halfTick live.running live.line, phaseMoment, live.phase]
  simp only [tock_eq fall decided drive settle, Moment.requests, taken]
  exact requests_announce { m with alu } d.halt d.call

theorem Live.ticks (live : m.Live) (decide : m.sequencer.fall.decision m.opcode m.probe = .ok d)
    (supported : d.word.adjusts = false) :
    m.pair.machine.halted = d.word.halts ∧ m.pair.requests = m.halfTick.requests := by
  have obeyed := (live.obeyed decide supported).2
  obtain ⟨_, _, _, _, ok, tocked⟩ := live.tock decide
  obtain ⟨running, line, moment⟩ := live.tocked tocked
  refine ⟨?_, ?_⟩
  · rw [halted, obeyed.sequencer]
    rfl
  · rw [pair, Moment.requests_andThen_of_ok ok, requests_halfTick running line, moment,
      requests_tick, List.append_nil]

namespace Periods

theorem ends (h : Periods m ds n) :
    (m.halfTicks (2 * ds.length)).fault = none ∧ (m.halfTicks (2 * ds.length)).machine = n := by
  induction h with
  | stay => exact ⟨rfl, rfl⟩
  | more live decide supported rest ih =>
    have ok := (live.obeyed decide supported).1
    rw [halfTicks_cons, Moment.fault_andThen_of_ok ok, Moment.machine_andThen_of_ok ok]
    exact ih

theorem going (h : Periods m ds n) (start : m.halted = false)
    (words : ∀ d ∈ ds, d.word.halts = false) : m.Busy (2 * ds.length) ∧ n.halted = false := by
  induction h with
  | stay => exact ⟨fun j lt => absurd lt (Nat.not_lt_zero j), start⟩
  | @more m n d ds live decide supported rest ih =>
    have goes := words d List.mem_cons_self
    have ok := (live.obeyed decide supported).1
    obtain ⟨tock, shown, -, -⟩ := live.tocks decide
    have next := (live.ticks decide supported).1
    obtain ⟨busy, last⟩ := ih (next.trans goes) fun e mem => words e (List.mem_cons_of_mem _ mem)
    refine ⟨?_, last⟩
    have two := Busy.two start tock (shown.trans goes)
    have split : 2 * (d :: ds).length = 2 + 2 * ds.length := by
      rw [List.length_cons]
      omega
    rw [pair_eq] at ok busy
    rw [split]
    exact two.append ok busy

/-- If the words agree on whether to rest, so does the machine at each half-tick but the first. -/
theorem halted_within (h : Periods m ds n) {rests : Bool}
    (words : ∀ d ∈ ds, d.word.halts = rests) {j : Nat} (pos : 0 < j) (le : j ≤ 2 * ds.length) :
    (m.halfTicks j).machine.halted = rests := by
  induction h generalizing j with
  | stay =>
    rw [List.length_nil] at le
    omega
  | @more m n d ds live decide supported rest ih =>
    have now := words d List.mem_cons_self
    have ok := (live.obeyed decide supported).1
    rw [List.length_cons] at le
    rcases j with _ | _ | _ | i
    · omega
    · rw [halfTicks_one]
      exact (live.tocks decide).2.1.trans now
    · rw [← pair_eq]
      exact (live.ticks decide supported).1.trans now
    · have split : i + 1 + 1 + 1 = 2 + (i + 1) := by omega
      rw [split, halfTicks_add, ← pair_eq, Moment.machine_andThen_of_ok ok]
      exact ih (fun e mem => words e (List.mem_cons_of_mem _ mem)) (Nat.succ_pos i) (by omega)

theorem silent (h : Periods m ds n) (calls : ∀ d ∈ ds, d.call = none) :
    (m.halfTicks (2 * ds.length)).requests = [] := by
  induction h with
  | stay => rfl
  | @more m n d ds live decide supported rest ih =>
    obtain ⟨-, -, -, asked⟩ := live.tocks decide
    rw [halfTicks_cons, Moment.requests_andThen_of_ok (live.obeyed decide supported).1,
      ih fun e mem => calls e (List.mem_cons_of_mem _ mem), (live.ticks decide supported).2, asked,
      calls d List.mem_cons_self]
    rfl

end Periods

/-! ## Steps are half-ticks -/

theorem Live.pairs_eq (live : m.Live)
    (decide : m.sequencer.fall.decision m.opcode m.probe = .ok d)
    (supported : d.word.adjusts = false) (fuel : Nat) :
    pairs (fuel + 1) m =
      m.pair.andThen (if d.last then fun n => { machine := n } else pairs fuel) := by
  obtain ⟨ok, obeyed⟩ := live.obeyed decide supported
  have atLast : m.pair.machine.sequencer.atLast = d.last := by
    rw [obeyed.sequencer]
    rfl
  rw [pairs]
  refine Moment.andThen_congr ok ?_
  simp only [atLast]
  cases d.last <;> rfl

theorem Passes.pairs_eq (h : Passes m ds n) (fuel : Nat) :
    pairs (ds.length + fuel) m = (m.halfTicks (2 * ds.length)).andThen (pairs fuel) := by
  induction h with
  | none m => simp [halfTicks, Moment.andThen]
  | @more m n d ds live decide supported more rest ih =>
    have spends : (d :: ds).length + fuel = ds.length + fuel + 1 := by
      rw [List.length_cons]
      omega
    rw [spends, live.pairs_eq decide supported, more, halfTicks_cons, Moment.andThen_assoc]
    exact Moment.andThen_congr (live.obeyed decide supported).1 ih

theorem Performs.pairs_eq_halfTicks (h : Performs m ds n) {fuel : Nat}
    (enough : ds.length ≤ fuel) : pairs fuel m = m.halfTicks (2 * ds.length) := by
  induction h generalizing fuel with
  | last live decide supported last =>
    cases fuel with
    | zero => simp at enough
    | succ fuel =>
      rw [live.pairs_eq decide supported, last, halfTicks_cons]
      rfl
  | more live decide supported more rest ih =>
    cases fuel with
    | zero => simp at enough
    | succ fuel =>
      rw [live.pairs_eq decide supported, more, halfTicks_cons]
      exact Moment.andThen_congr (live.obeyed decide supported).1 (ih (by simpa using enough))

/-! ## The stage that asks -/

theorem call_eq_none (decide : m.sequencer.fall.decision m.opcode m.probe = .ok d)
    (other : m.sequencer.fall.stage ≠ 3) : d.call = none := by
  rw [(Sequencer.decision_call decide).1, if_neg other]

theorem Live.next_stage (live : m.Live)
    (decide : m.sequencer.fall.decision m.opcode m.probe = .ok d)
    (supported : d.word.adjusts = false) (more : d.last = false) :
    m.pair.machine.sequencer.fall.stage = min 255 (m.sequencer.fall.stage + 1) := by
  rw [(live.obeyed decide supported).2.sequencer]
  simp [Sequencer.fall, Sequencer.adopt, Sequencer.takeCall, more]

theorem Passes.calls (h : Passes m ds n) (early : m.sequencer.fall.stage + ds.length ≤ 3) :
    ∀ d ∈ ds, d.call = .none := by
  induction h with
  | none => intro d mem; cases mem
  | @more m n d ds live decide supported more rest ih =>
    rw [List.length_cons] at early
    have next := live.next_stage decide supported more
    intro e mem
    rcases List.mem_cons.1 mem with rfl | later
    · exact call_eq_none decide (by omega)
    · exact ih (by omega) e later

theorem Performs.calls (h : Performs m ds n) (late : 3 < m.sequencer.fall.stage) :
    ∀ d ∈ ds, d.call = none := by
  induction h with
  | last live decide supported last =>
    intro e mem
    rw [List.mem_singleton] at mem
    exact mem ▸ call_eq_none decide (by omega)
  | @more m n d ds live decide supported more rest ih =>
    have next := live.next_stage decide supported more
    intro e mem
    rcases List.mem_cons.1 mem with rfl | later
    · exact call_eq_none decide (by omega)
    · exact ih (by omega) e later

/-- From stage 3 on, only the first tock can ask for anything. -/
theorem Performs.asks_once (h : Performs m ds n) (at3 : m.sequencer.fall.stage = 3) :
    (m.halfTicks (2 * ds.length)).requests = m.halfTick.requests := by
  cases h with
  | last live decide supported last =>
    rw [List.length_singleton, Nat.mul_one, ← pair_eq]
    exact (live.ticks decide supported).2
  | more live decide supported more rest =>
    have next := live.next_stage decide supported more
    rw [halfTicks_cons, Moment.requests_andThen_of_ok (live.obeyed decide supported).1,
      (live.ticks decide supported).2, rest.periods.silent (rest.calls (by omega)), List.append_nil]

/-! ## Instructions -/

theorem Ready.fetch_halfTicks (h : m.Ready) :
    (m.halfTicks 6).fault = none ∧ (m.halfTicks 6).machine = m.fetched ∧
      (m.halfTicks 6).requests = [] ∧
      (m.halted = false → m.Busy 6 ∧ m.fetched.halted = false) ∧
      ∀ fuel, pairs (3 + fuel) m = (m.halfTicks 6).andThen (pairs fuel) := by
  obtain ⟨ds, passes, words, -⟩ := h.fetches
  have three : ds.length = 3 := by
    rw [← List.length_map, words]
    rfl
  have first : m.sequencer.fall.stage = 0 := by simp [Sequencer.fall, h.atLast]
  have six : 2 * ds.length = 6 := by omega
  obtain ⟨ok, reached⟩ := passes.periods.ends
  have silent := passes.periods.silent (passes.calls (by omega))
  have steps := passes.pairs_eq
  rw [six] at ok reached silent
  rw [six, three] at steps
  refine ⟨ok, reached, silent, fun start => ?_, steps⟩
  have plain : ∀ w ∈ fetch, w.halts = false := by decide
  have going := passes.periods.going start fun d mem =>
    plain d.word (words ▸ List.mem_map_of_mem mem)
  rwa [six] at going

/-- At stage 3 the controller decides on the instruction at the program counter, and on the state as
it was when the fetch began. -/
theorem Ready.decides (h : m.Ready) :
    ∃ d, m.fetched.sequencer.fall.decision m.fetched.opcode m.fetched.probe = .ok d ∧
      d.word.halts = m.programState.instruction.halts ∧
      d.call = Microcode.request? m.programState.instruction m.programState.probe ∧
      (d.word.adjusts = true ↔ m.programState.instruction.operation? = some .daa) := by
  obtain ⟨-, -, -, live, more, stage, datapath, probe⟩ := h.fetches
  obtain ⟨d, decided, decide⟩ := decides_three more stage
  have decoded := decode_of_fetched datapath
  refine ⟨d, decide, ?_, ?_, ?_⟩
  · rw [decision_halts decided, decoded]
  · rw [(decision_call decided).1, if_pos rfl, decoded, probe]
  · rw [decision_adjusts_iff decided (Nat.le_refl 3), ← operation_decode_eq_daa_iff, decoded]
    exact and_iff_left rfl

theorem Ready.asks (h : m.Ready) :
    (m.halfTicks 7).fault = none ∧
      (m.halfTicks 7).machine.halted = m.programState.instruction.halts ∧
      (m.halfTicks 7).requests.map (fun r => (r.1, r.2.bytes)) = m.programState.request?.toList ∧
      (m.halted = false → m.Busy 7) := by
  obtain ⟨ok, reached, silent, going, -⟩ := h.fetch_halfTicks
  obtain ⟨-, -, -, live, -, -, datapath, -⟩ := h.fetches
  obtain ⟨d, decide, halts, call, -⟩ := h.decides
  obtain ⟨ok', shown, -, asked⟩ := live.tocks decide
  rw [halfTicks_succ 6, Moment.fault_andThen_of_ok ok, Moment.machine_andThen_of_ok ok,
    Moment.requests_andThen_of_ok ok, reached, silent]
  refine ⟨ok', shown.trans halts, ?_, fun start => ?_⟩
  · have bytes : m.fetched.memory.bytes = m.programState.memory := by
      have memory := congrArg (fun d => d.memory) datapath
      rw [Datapath.run_fetch] at memory
      exact memory
    rw [asked, call, ProgramState.request?_eq, List.nil_append, ← bytes]
    cases Microcode.request? m.programState.instruction m.programState.probe <;> rfl
  · obtain ⟨busy, still⟩ := going start
    exact busy.append ok (by rw [reached]; exact .one still)

theorem Ready.performs_fetched (h : m.Ready)
    (named : m.programState.instruction.operation? ≠ some .daa) :
    ∃ es n, Performs m.fetched es n ∧
      es.map Decision.word = ownWords m.programState.instruction m.programState.probe ∧
      m.programState.halfTicks = 6 + 2 * es.length := by
  obtain ⟨ds, passes, words, live, more, stage, datapath, probe⟩ := h.fetches
  have decoded := decode_of_fetched datapath
  obtain ⟨es, n, performs, own⟩ := performs_own live more stage (by rw [decoded]; exact named)
  rw [decoded, probe] at own
  refine ⟨es, n, performs, own, ?_⟩
  rw [ProgramState.halfTicks, ← own, List.length_map]
  omega

/-- An instruction that comes to its end leaves a ready machine, and did what it means. -/
theorem Ready.spans (h : m.Ready) (named : m.programState.instruction.operation? ≠ some .daa) :
    let t := m.halfTicks m.programState.halfTicks
    t.fault = none ∧ t.machine.Ready ∧
      t.machine.programState = m.programState.execute m.programState.instruction ∧
      t.requests = (m.halfTicks 7).requests ∧ pairs maxStages m = t := by
  obtain ⟨ok, reached, silent, -, steps⟩ := h.fetch_halfTicks
  obtain ⟨-, -, -, -, more, stage, datapath, -⟩ := h.fetches
  obtain ⟨es, n, performs, words, total⟩ := h.performs_fetched named
  obtain ⟨ok', reached'⟩ := performs.periods.ends
  have at3 : m.fetched.sequencer.fall.stage = 3 := by
    rw [Sequencer.fall_stage more (by omega), stage]
  intro t
  have parts : t = (m.halfTicks 6).andThen (halfTicks (2 * es.length)) := by
    rw [← halfTicks_add, ← total]
  have end_eq : t.machine = n := by
    rw [parts, Moment.machine_andThen_of_ok ok, reached, reached']
  refine ⟨?_, ?_, ?_, ?_, ?_⟩
  · rw [parts, Moment.fault_andThen_of_ok ok, reached]
    exact ok'
  · rw [end_eq]
    exact performs.ready
  · have meaning := m.datapath.run_ownWords named fun op => Instruction.unary_of_decode
    have own : ownWords m.programState.instruction m.datapath.probe = _ := words.symm
    rw [← datapath, own, ← performs.datapath_eq] at meaning
    rw [end_eq]
    exact meaning
  · rw [parts, halfTicks_succ 6, Moment.requests_andThen_of_ok ok,
      Moment.requests_andThen_of_ok ok, reached, performs.asks_once at3]
  · have short := ownWords_length_le m.programState.instruction m.programState.probe
    rw [← words, List.length_map] at short
    rw [parts]
    refine (steps 13).trans (Moment.andThen_congr ok ?_)
    rw [reached]
    exact performs.pairs_eq_halfTicks short

theorem Ready.busy (h : m.Ready) (named : m.programState.instruction.operation? ≠ some .daa)
    (start : m.halted = false) (goes : m.programState.instruction.halts = false) :
    m.Busy m.programState.halfTicks ∧
      (m.halfTicks m.programState.halfTicks).machine.halted = false := by
  obtain ⟨ok, reached, -, going, -⟩ := h.fetch_halfTicks
  obtain ⟨es, n, performs, words, total⟩ := h.performs_fetched named
  obtain ⟨busy, still⟩ := going start
  obtain ⟨busy', still'⟩ := performs.periods.going still fun d mem =>
    (halts_of_mem_ownWords (words ▸ List.mem_map_of_mem mem)).trans goes
  rw [total]
  refine ⟨busy.append ok (by rw [reached]; exact busy'), ?_⟩
  rw [halfTicks_add, Moment.machine_andThen_of_ok ok, reached, performs.periods.ends.2]
  exact still'

theorem Ready.refuses (h : m.Ready)
    (named : m.programState.instruction.operation? = some .daa) :
    (m.halfTicks 8).fault = some (.unsupportedOperation .daa) ∧
      pairs maxStages m = m.halfTicks 8 ∧ (m.halted = false → m.Busy 8) := by
  obtain ⟨ok, reached, -, going, steps⟩ := h.fetch_halfTicks
  obtain ⟨-, -, -, live, -⟩ := h.fetches
  obtain ⟨d, decide, halts, -, adjusts⟩ := h.decides
  obtain ⟨ok', shown, -, -⟩ := live.tocks decide
  have goes : m.programState.instruction.halts = false := by
    cases i : m.programState.instruction <;> first | rfl | (rw [i] at named; cases named)
  have refused := live.refused decide (adjusts.2 named)
  refine ⟨?_, ?_, fun start => ?_⟩
  · rw [halfTicks_succ_succ 6, Moment.fault_andThen_of_ok ok, reached]
    exact refused
  · rw [halfTicks_succ_succ 6]
    refine (steps 13).trans (Moment.andThen_congr ok ?_)
    rw [reached, pairs, Moment.andThen_of_fault refused]
  · obtain ⟨busy, still⟩ := going start
    have two := Busy.two still ok' ((shown.trans halts).trans goes)
    rw [← reached] at two
    exact busy.append ok two

theorem tick_of_rest (word : m.sequencer.word = { ControlWord.idle with halt := true }) :
    m.tick.machine = m ∧ m.tick.fault = none := by
  have latch : m.registers.rise m.sequencer.word m.bus = .ok m.registers := by
    rw [word]
    rfl
  have store : m.memory.rise m.sequencer.word m.bus = .ok m.memory := by
    rw [word]
    rfl
  have operate : m.alu.rise m.sequencer.word m.bus = (m.alu, none) := by
    rw [word]
    rfl
  rw [tick_eq latch store operate, word]
  exact ⟨rfl, rfl⟩

/-- The last half-tick of a halt passes, and does nothing else. -/
theorem Ready.rests (h : m.Ready) (halts : m.programState.instruction.halts = true) :
    m.programState.halfTicks = 8 ∧
      (m.halfTicks 8).machine =
        { (m.halfTicks 7).machine with clock := (m.halfTicks 7).machine.clock.advance } := by
  have alone : ownWords m.programState.instruction m.programState.probe =
      [{ ControlWord.idle with halt := true }] := by
    cases i : m.programState.instruction <;> rw [i] at halts <;> first | rfl | cases halts
  refine ⟨by rw [ProgramState.halfTicks, alone]; rfl, ?_⟩
  obtain ⟨ok, reached, -, -, -⟩ := h.fetch_halfTicks
  obtain ⟨-, -, -, live, more, stage, datapath, -⟩ := h.fetches
  obtain ⟨d, decided, decide⟩ := decides_three more stage
  rw [← decode_of_fetched datapath] at halts
  have word := decision_of_halts decided halts
  obtain ⟨_, _, _, _, ok', tocked⟩ := live.tock decide
  obtain ⟨running, line, moment⟩ := live.tocked tocked
  have shown : m.fetched.halfTick.machine.sequencer.word =
      { ControlWord.idle with halt := true } := by
    rw [tocked, ← word]
    rfl
  obtain ⟨same, fine⟩ := tick_of_rest shown
  rw [halfTicks_succ_succ 6, halfTicks_succ 6, Moment.machine_andThen_of_ok ok,
    Moment.machine_andThen_of_ok ok, reached, pair, Moment.machine_andThen_of_ok ok',
    halfTick_of_ok running line (by rw [moment, fine]), moment, same]

end Machine

end Micro8080
