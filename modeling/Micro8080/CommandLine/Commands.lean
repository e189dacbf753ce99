import Micro8080.CommandLine.Arguments
import Micro8080.CommandLine.Report
import Micro8080.Json.NumberMap

/-!
# Commands

A command reads an image, and a label map if it is given one, and then runs the image, steps
through it or lists it.  The outcome is what was written and an exit status: 0 on success, 2 when
a run spends its budget, and 1 on any error.
-/

namespace Micro8080.CommandLine

/-- What the system knows of files: their bytes, or its words for why there are none. -/
abbrev Files := String → Except String ByteArray

/-- The bytes of a file, with its name in the complaint if there are none. -/
def readFile (files : Files) (path : String) : Except String ByteArray :=
  match files path with
  | .ok bytes => .ok bytes
  | .error reason => .error ("failed to read " ++ path ++ ": " ++ reason)

/-- The label map of a file. -/
def readLabels (files : Files) (path : String) : Except String Labels := do
  let bytes ← readFile files path
  match String.fromUTF8? bytes with
  | none => .error ("failed to read " ++ path ++ ": stream did not contain valid UTF-8")
  | some text =>
    match Json.NumberMap.read? text with
    | none => .error ("invalid label map " ++ path)
    | some entries => .ok (Labels.ofList entries)

/-- The program of the arguments. -/
def readProgram (files : Files) (a : Arguments) : Except String Program := do
  let bytes ← readFile files a.input
  match Program.ofImage bytes.data [] with
  | .error fault => .error (a.input ++ ": " ++ fault.message)
  | .ok program =>
    match a.labels with
    | none => .ok program
    | some path => return { program with labels := ← readLabels files path }

/-- A computer with the program in memory.  Snapshots are kept only to be printed. -/
def prepare (program : Program) (a : Arguments) : Except String Computer :=
  match Computer.ofImage { recordHistory := a.json } program.image with
  | .ok c => .ok c
  | .error fault => .error fault.message

/-! ## The commands -/

/-- The exit status of a run that spends its budget. -/
def budgetExhausted : Nat := 2

/-- Runs a program to its end or until its budget is spent. -/
def runProgram (a : Arguments) (c : Computer) (s : Station) : Station × Nat :=
  let budget := a.limit.getD c.config.runBudget
  match c.run Station.see budget s with
  | (c, s, .error fault) => (s.complain (faultText c.machine fault), 1)
  | (c, s, .ok report) =>
    let summary :=
      if report.halted then
        s!"halted ({haltText c.machine.haltReason}) after {report.halfTicks} half-ticks" ++
          s!" ({report.halfTicks / 2} cycles)"
      else s!"budget of {budget} half-ticks exhausted without HLT"
    let s :=
      if a.json then s.printLine (runValue c report).pretty
      else (s.printLine summary).printLine (registerLine c.machine)
    (s, if report.halted then 0 else budgetExhausted)

/-- The outcome of steps: the computer and the steps as JSON, or nothing after a fault. -/
abbrev StepOutcome := Station × Option (Computer × Array Json.Value)

/-- Steps through a program, at most this often and until it halts. -/
def stepOn (json : Bool) (labels : Labels) :
    Nat → Computer → Station → Array Json.Value → StepOutcome
  | 0, c, s, steps => (s, some (c, steps))
  | n + 1, c, s, steps =>
    if c.machine.halted then (s, some (c, steps))
    else
      let row := c.machine.memory.disassemble c.machine.pc
      match c.step Station.see s with
      | (c, s, .error fault) => (s.complain (faultText c.machine fault), none)
      | (c, s, .ok _) =>
        if json then stepOn json labels n c s (steps.push (stepValue labels row c.history))
        else
          let line := rowText labels row ++ "  " ++ registerLine c.machine
          stepOn json labels n c (s.printLine line) steps

/-- Steps through a program and shows each instruction. -/
def stepProgram (a : Arguments) (labels : Labels) (c : Computer) (s : Station) : Station × Nat :=
  match stepOn a.json labels (a.limit.getD 1) c s #[] with
  | (s, none) => (s, 1)
  | (s, some (c, steps)) =>
    if a.json then (s.printLine (Json.Value.list steps.toList).pretty, 0)
    else if c.machine.halted then (s.printLine s!"halted ({haltText c.machine.haltReason})", 0)
    else (s, 0)

/-- The rows of an image from an address on, at most `n` of them, with the bytes of each.  The
bytes of the last row end with the image. -/
def listingFrom (m : Memory) (image : Array UInt8) : Nat → Nat → List (Listing.Row × List UInt8)
  | 0, _ => []
  | n + 1, a =>
    if a < image.size then
      let row := m.disassemble (.ofNat a)
      (row, (image.extract a (a + row.length)).toList) :: listingFrom m image n (a + row.length)
    else []

/-- The rows of an image, with the bytes of each. -/
def listing (m : Memory) (image : Array UInt8) : List (Listing.Row × List UInt8) :=
  listingFrom m image image.size 0

def listProgram (program : Program) (s : Station) : Station × Nat :=
  match ({} : Memory).load program.image with
  | .error fault => (s.complain ("error: " ++ fault.message), 1)
  | .ok m =>
    let rows := listing m program.image
    (rows.foldl (fun s row =>
      s.printLine (rowText program.labels row.1 ++ "  " ++ bytesText row.2)) s, 0)

/-! ## The whole -/

/-- What was written and the exit status. -/
structure ExitReport where
  out : ByteArray
  err : ByteArray
  status : Nat

/-- The threshold that a count of requests for more log output stands for. -/
def verbosityThreshold : Nat → Log.Threshold
  | 0 => some .warn
  | 1 => some .info
  | 2 => some .debug
  | _ => some .trace

/-- Carries out a command on a program that was read. -/
def perform (program : Program) (a : Arguments) (s : Station) : Station × Nat :=
  match a.command, prepare program a with
  | .disassemble, _ => listProgram program s
  | _, .error reason => (s.complain ("error: " ++ reason), 1)
  | .run, .ok c => runProgram a c s
  | .step, .ok c => stepProgram a program.labels c s

/-- A console and a log on an empty terminal.  The filter written outside adds to the threshold
for all targets, and what it says wrongly is complained about. -/
def Station.ofArguments (a : Arguments) (logFilter : String) : Station :=
  let (filter, refused) :=
    Log.Filter.extend [{ threshold := verbosityThreshold a.verbosity }] logFilter
  let s : Station := { console := { sink := { consoleToErr := a.json } }, filter }
  refused.foldl (fun s entry =>
    s.complain ("warning: invalid logging spec '" ++ entry ++ "', ignoring it")) s

def carryOut (files : Files) (logFilter : String) (a : Arguments) : ExitReport :=
  let s := Station.ofArguments a logFilter
  let (s, status) :=
    match readProgram files a with
    | .error reason => (s.complain ("error: " ++ reason), 1)
    | .ok program => perform program a s
  { out := s.console.sink.out, err := s.console.sink.err, status }

/-- What was written to a terminal, and the exit status. -/
def ExitReport.ofTerminal (t : Terminal) (status : Nat) : ExitReport :=
  { out := t.out, err := t.err, status }

/-- Does what the arguments ask for.  Help that is asked for after a command counts as an
error, but is shown like help. -/
def execute (files : Files) (logFilter : String) (args : List String) : ExitReport :=
  let t : Terminal := {}
  match Request.ofArguments args with
  | .ok .help => .ofTerminal (t.printLine usage) 0
  | .error .help => .ofTerminal (t.printLine usage) 1
  | .error e => .ofTerminal ((t.complain ("error: " ++ e.message)).complain usage) 1
  | .ok (.carryOut a) => carryOut files logFilter a

end Micro8080.CommandLine
