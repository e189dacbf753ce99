import Micro8080.CommandLine.Commands
import Micro8080.Proofs.Console

/-! # What is written where

A command writes lines of results to its first stream, and lines of complaints and of its log to the
second.  The bytes that the running program prints come first in the first stream, or they stand
between the lines of the second (`Interleaved`).  In both cases it is the same bytes, and the same
lines: `Streams`.

A terminal never refuses a byte, so that a console on a terminal prints all that it is asked to
(`Station.Holds.see`).
-/

namespace Micro8080.CommandLine

/-- Lines, as they stand in a stream. -/
def textOf (lines : List String) : List UInt8 :=
  lines.flatMap fun line => (line ++ "\n").toUTF8.data.toList

theorem textOf_concat (lines : List String) (line : String) :
    textOf (lines ++ [line]) = textOf lines ++ (line ++ "\n").toUTF8.data.toList := by
  simp only [textOf, List.flatMap_append, List.flatMap_singleton]

/-- Bytes and whole lines in one stream, each in their own order. -/
inductive Interleaved : List UInt8 → List String → List UInt8 → Prop
  | nil : Interleaved [] [] []
  | bytes {printed lines text} (more : List UInt8) (h : Interleaved printed lines text) :
      Interleaved (printed ++ more) lines (text ++ more)
  | line {printed lines text} (line : String) (h : Interleaved printed lines text) :
      Interleaved printed (lines ++ [line]) (text ++ (line ++ "\n").toUTF8.data.toList)

/-- Two streams hold the bytes that the running program printed, to the second one or else to the
first, the lines that were written to the second one, and the results after all of this. -/
structure Streams (toErr : Bool) (printed : List UInt8) (lines results : List String)
    (out err : ByteArray) : Prop where
  together : toErr = false →
    out.data.toList = printed ++ textOf results ∧ err.data.toList = textOf lines
  apart : toErr = true →
    out.data.toList = textOf results ∧ Interleaved printed lines err.data.toList

namespace Streams

variable {toErr : Bool} {printed : List UInt8} {lines results : List String} {out err : ByteArray}

theorem nothing (toErr : Bool) : Streams toErr [] [] [] .empty .empty :=
  ⟨fun _ => ⟨rfl, rfl⟩, fun _ => ⟨rfl, .nil⟩⟩

theorem complain (h : Streams toErr printed lines results out err) (line : String) :
    Streams toErr printed (lines ++ [line]) results out (err ++ (line ++ "\n").toUTF8) := by
  refine ⟨fun no => ?_, fun yes => ?_⟩
  · rw [ByteArray.toList_data_append, textOf_concat, (h.together no).2]
    exact ⟨(h.together no).1, rfl⟩
  · rw [ByteArray.toList_data_append]
    exact ⟨(h.apart yes).1, (h.apart yes).2.line line⟩

theorem printLine (h : Streams toErr printed lines results out err) (line : String) :
    Streams toErr printed lines (results ++ [line]) (out ++ (line ++ "\n").toUTF8) err := by
  refine ⟨fun no => ?_, fun yes => ?_⟩
  · rw [ByteArray.toList_data_append, textOf_concat, (h.together no).1, List.append_assoc]
    exact ⟨rfl, (h.together no).2⟩
  · rw [ByteArray.toList_data_append, textOf_concat, (h.apart yes).1]
    exact ⟨rfl, (h.apart yes).2⟩

theorem out_of_silent (h : Streams toErr [] lines results out err) :
    out.data.toList = textOf results := by
  cases toErr with
  | false => exact (h.together rfl).1
  | true => exact (h.apart rfl).1

end Streams

theorem toList_foldl_push (bytes : List UInt8) (b : ByteArray) :
    (bytes.foldl ByteArray.push b).data.toList = b.data.toList ++ bytes := by
  induction bytes generalizing b with
  | nil => exact (List.append_nil _).symm
  | cons x bytes ih =>
    rw [List.foldl_cons, ih, ByteArray.data_push, Array.toList_push, List.append_assoc]
    rfl

/-! ## Terminals -/

structure Terminal.Holds (t : Terminal) (toErr : Bool) (printed : List UInt8)
    (lines results : List String) : Prop where
  route : t.consoleToErr = toErr
  streams : Streams toErr printed lines results t.out t.err

namespace Terminal.Holds

variable {t : Terminal} {toErr : Bool} {printed : List UInt8} {lines results : List String}

theorem complain (h : t.Holds toErr printed lines results) (line : String) :
    (t.complain line).Holds toErr printed (lines ++ [line]) results :=
  ⟨h.route, h.streams.complain line⟩

theorem printLine (h : t.Holds toErr printed lines results) (line : String) :
    (t.printLine line).Holds toErr printed lines (results ++ [line]) :=
  ⟨h.route, h.streams.printLine line⟩

theorem printBytes (h : t.Holds toErr printed lines []) (bytes : List UInt8) :
    (t.printBytes bytes).Holds toErr (printed ++ bytes) lines [] := by
  obtain ⟨rfl, together, apart⟩ := h
  cases route : t.consoleToErr with
  | false =>
    simp only [Terminal.printBytes, route, Bool.false_eq_true, if_false]
    refine ⟨rfl, fun _ => ?_, nofun⟩
    rw [toList_foldl_push, (together route).1]
    exact ⟨by simp [textOf], (together route).2⟩
  | true =>
    simp only [Terminal.printBytes, route, if_true]
    refine ⟨rfl, nofun, fun _ => ?_⟩
    rw [toList_foldl_push]
    exact ⟨(apart route).1, (apart route).2.bytes bytes⟩

end Terminal.Holds

theorem printBytes_nil (t : Terminal) : t.printBytes [] = t := by
  simp only [Terminal.printBytes, List.foldl_nil, ite_self]

theorem deliver_terminal (t : Terminal) (bytes : List UInt8) :
    Console.deliver t bytes = (.ok (), t.printBytes bytes) := by
  cases bytes with
  | nil => rw [Console.deliver_nil, printBytes_nil]; rfl
  | cons b bytes =>
    have taken : Sink.write t (b :: bytes) = (.ok (bytes.length + 1), t.printBytes (b :: bytes)) :=
      rfl
    rw [Console.deliver_of_taken taken, List.drop_length, Console.deliver_nil]
    rfl

/-! ## Stations -/

/-- The lines that a record makes in a log. -/
def linesOf (f : Log.Filter) : Option Log.Record → List String
  | none => []
  | some r => if (f.threshold (targetOf r.source)).admits r.level then [logLine r] else []

end Micro8080.CommandLine

namespace Micro8080

/-- What the program has printed by an event. -/
def Event.printed : Event → List UInt8
  | .systemCall call memory => Console.printed call memory
  | _ => []

/-- What a console has to say of an event, when nothing fails. -/
def Event.remark? : Event → Option Log.Record
  | .systemCall call memory =>
    (({ sink := {} } : Console CommandLine.Terminal).answer call memory).2
  | _ => none

end Micro8080

namespace Micro8080.CommandLine

/-- The lines that an event makes: its own, and what the console says of it. -/
def eventLines (f : Log.Filter) (e : Event) : List String :=
  linesOf f (e.record? (f.threshold (targetOf e.source))) ++ linesOf f e.remark?

theorem print_terminal (c : Console Terminal) (going : c.failure = none) (bytes : List UInt8) :
    c.print bytes = ({ c with sink := c.sink.printBytes bytes }, none) := by
  simp only [Console.print, going, deliver_terminal]

/-- A console on a terminal prints what it is asked to, and what it says of it does not depend on
what was printed before. -/
theorem answer_terminal (c : Console Terminal) (going : c.failure = none) (call : SystemCall)
    (memory : Memory) :
    c.answer call memory =
      ({ c.counted with sink := c.sink.printBytes (Console.printed call memory) },
        (Event.systemCall call memory).remark?) := by
  have prints : (c.answer call memory).1 =
      { c.counted with sink := c.sink.printBytes (Console.printed call memory) } := by
    rcases c.answer_eq_or call memory with prints | ⟨nothing, rests⟩
    · rw [prints, print_terminal c.counted going]
      rfl
    · rw [rests, nothing, printBytes_nil]
      rfl
  have remarks : (c.answer call memory).2 = (Event.systemCall call memory).remark? := by
    simp only [Event.remark?, Console.answer]
    cases Console.request call memory with
    | print bytes =>
      have silent (d : Console Terminal) (going : d.failure = none) : (d.print bytes).2 = none := by
        rw [print_terminal d going]
      exact (silent c.counted going).trans (silent _ rfl).symm
    | unterminated => rfl
    | unknown => rfl
  exact Prod.ext prints remarks

/-- What a station holds that nothing has failed on. -/
structure Station.Holds (s : Station) (f : Log.Filter) (toErr : Bool) (printed : List UInt8)
    (lines results : List String) : Prop where
  filter : s.filter = f
  going : s.console.failure = none
  terminal : s.console.sink.Holds toErr printed lines results

namespace Station.Holds

variable {s : Station} {f : Log.Filter} {toErr : Bool} {printed : List UInt8}
  {lines results : List String}

theorem complain (h : s.Holds f toErr printed lines results) (line : String) :
    (s.complain line).Holds f toErr printed (lines ++ [line]) results :=
  ⟨h.filter, h.going, h.terminal.complain line⟩

theorem printLine (h : s.Holds f toErr printed lines results) (line : String) :
    (s.printLine line).Holds f toErr printed lines (results ++ [line]) :=
  ⟨h.filter, h.going, h.terminal.printLine line⟩

theorem log (h : s.Holds f toErr printed lines results) (r : Option Log.Record) :
    (s.log r).Holds f toErr printed (lines ++ linesOf f r) results := by
  cases r with
  | none => rwa [linesOf, List.append_nil]
  | some r =>
    simp only [Station.log, Station.thresholdFor, h.filter, linesOf]
    split
    · exact h.complain _
    · rwa [List.append_nil]

theorem answer (h : s.Holds f toErr printed lines []) (call : SystemCall) (memory : Memory) :
    ({ s with console := (s.console.answer call memory).1 }.log
        (s.console.answer call memory).2).Holds f toErr (printed ++ Console.printed call memory)
      (lines ++ linesOf f (Event.systemCall call memory).remark?) [] := by
  rw [answer_terminal s.console h.going]
  have prints : ({ s with console :=
      { s.console.counted with
        sink := s.console.sink.printBytes (Console.printed call memory) } } : Station).Holds f toErr
      (printed ++ Console.printed call memory) lines [] :=
    ⟨h.filter, h.going, h.terminal.printBytes _⟩
  exact prints.log _

theorem see (h : s.Holds f toErr printed lines []) (e : Event) :
    (s.see e).Holds f toErr (printed ++ e.printed) (lines ++ eventLines f e) [] := by
  obtain ⟨rfl, -, -⟩ := id h
  have logged := h.log (e.record? (s.thresholdFor e.source))
  rw [eventLines, ← List.append_assoc]
  cases e with
  | systemCall call memory => exact logged.answer call memory
  | _ =>
    rw [Event.printed, Event.remark?, linesOf, List.append_nil, List.append_nil]
    · exact logged
    all_goals exact nofun

theorem seeAll (h : s.Holds f toErr printed lines []) (events : List Event) :
    (events.foldl Station.see s).Holds f toErr (printed ++ events.flatMap Event.printed)
      (lines ++ events.flatMap (eventLines f)) [] := by
  induction events generalizing s printed lines with
  | nil => simpa using h
  | cons e events ih =>
    rw [List.foldl_cons, List.flatMap_cons, List.flatMap_cons, ← List.append_assoc,
      ← List.append_assoc]
    exact ih (h.see e)

theorem complainAll {α : Type} (h : s.Holds f toErr printed lines results) (line : α → String)
    (xs : List α) : (xs.foldl (fun s x => s.complain (line x)) s).Holds f toErr printed
      (lines ++ xs.map line) results := by
  induction xs generalizing s lines with
  | nil => simpa using h
  | cons x xs ih =>
    rw [List.foldl_cons, List.map_cons, List.append_cons]
    exact ih (h.complain (line x))

theorem printAll {α : Type} (h : s.Holds f toErr printed lines results) (line : α → String)
    (xs : List α) : (xs.foldl (fun s x => s.printLine (line x)) s).Holds f toErr printed lines
      (results ++ xs.map line) := by
  induction xs generalizing s results with
  | nil => simpa using h
  | cons x xs ih =>
    rw [List.foldl_cons, List.map_cons, List.append_cons]
    exact ih (h.printLine (line x))

end Station.Holds

/-- What a station starts with depends on how much log output was asked for, and on nothing else of
the arguments. -/
theorem exists_holds_ofArguments (verbosity : Nat) (logFilter : String) :
    ∃ f lines, ∀ a : Arguments, a.verbosity = verbosity →
      (Station.ofArguments a logFilter).Holds f a.json [] lines [] := by
  rcases extended : Log.Filter.extend [{ threshold := verbosityThreshold verbosity }] logFilter with
    ⟨f, refused⟩
  let warning (entry : String) := "warning: invalid logging spec '" ++ entry ++ "', ignoring it"
  refine ⟨f, refused.map warning, fun a same => ?_⟩
  have start : ({ console := { sink := { consoleToErr := a.json } }, filter := f } : Station).Holds
      f a.json [] [] [] := ⟨rfl, rfl, rfl, .nothing a.json⟩
  simp only [Station.ofArguments, same, extended]
  exact start.complainAll _ refused

/-! ## Programs -/

/-- The files hold an image, and a label map if the arguments name one. -/
structure Given (files : Files) (a : Arguments) (program : Program) : Prop where
  image : files a.input = .ok ⟨program.image⟩
  labels : match a.labels with
    | none => program.labels = []
    | some path => readLabels files path = .ok program.labels

variable {files : Files} {args : List String} {a : Arguments}
  {program : Program}

theorem readProgram_of_given (given : Given files a program) :
    readProgram files a = .ok program := by
  obtain ⟨image, labels⟩ := given
  obtain ⟨bytes, names, fits⟩ := program
  have read : readFile files a.input = .ok ⟨bytes⟩ := by rw [readFile, image]
  have loads : Program.ofImage bytes [] = .ok ⟨bytes, [], fits⟩ := dif_pos fits
  rw [readProgram, read]
  simp only [bind, Except.bind, loads]
  cases named : a.labels with
  | none =>
    rw [named] at labels
    simp only at labels ⊢
    rw [labels]
  | some path =>
    rw [named] at labels
    simp only at labels ⊢
    rw [labels]
    rfl

theorem execute_of_given (request : Request.ofArguments args = .ok (.carryOut a))
    (given : Given files a program) (logFilter : String) :
    let (s, status) := perform program a (Station.ofArguments a logFilter)
    execute files logFilter args =
      { out := s.console.sink.out, err := s.console.sink.err, status } := by
  simp only [execute, request, carryOut, readProgram_of_given given]

end Micro8080.CommandLine
