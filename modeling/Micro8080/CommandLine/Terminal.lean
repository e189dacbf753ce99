import Micro8080.Console.Basic
import Micro8080.Log.Filter
import Micro8080.Machine.Event

/-!
# The terminal

A command writes to two streams: its results go to the first, its complaints and log to the
second.  What the running program prints goes to the one or the other in the same order, and a
terminal never refuses a byte.
-/

namespace Micro8080.CommandLine

/-- What was written to the two streams, and where the console writes. -/
structure Terminal where
  out : ByteArray := .empty
  err : ByteArray := .empty
  /-- The console writes to the second stream. -/
  consoleToErr : Bool := false

namespace Terminal

/-- A line of results. -/
def printLine (t : Terminal) (line : String) : Terminal :=
  { t with out := t.out ++ (line ++ "\n").toUTF8 }

/-- A line of complaints. -/
def complain (t : Terminal) (line : String) : Terminal :=
  { t with err := t.err ++ (line ++ "\n").toUTF8 }

/-- What the running program prints. -/
def printBytes (t : Terminal) (bytes : List UInt8) : Terminal :=
  if t.consoleToErr then { t with err := bytes.foldl ByteArray.push t.err }
  else { t with out := bytes.foldl ByteArray.push t.out }

instance : Sink Terminal where
  Failure := WriteError
  writeZero := .writeZero
  message := WriteError.message
  write t bytes := (.ok bytes.length, t.printBytes bytes)
  flush t := (.ok (), t)

end Terminal

/-- The target that the records of a source are filed under. -/
def targetOf : Log.Source → String
  | .machine => "sapsim_core::computer"
  | .sequencer => "sapsim_core::controller"
  | .console => "sapsim_core::peripherals::console"
  | .debugger => "sapsim_core::session"

/-- Text filled up with blanks to a width. -/
def padRight (width : Nat) (s : String) : String :=
  s ++ String.ofList (List.replicate (width - s.length) ' ')

/-- A record as a line of the log. -/
def logLine (r : Log.Record) : String :=
  s!"[{padRight 5 r.level.name} {targetOf r.source}] {r.text}"

/-- A console on a terminal, and a log. -/
structure Station where
  console : Console Terminal
  filter : Log.Filter

namespace Station

def onTerminal (s : Station) (f : Terminal → Terminal) : Station :=
  { s with console := { s.console with sink := f s.console.sink } }

def printLine (s : Station) (line : String) : Station := s.onTerminal (·.printLine line)

def complain (s : Station) (line : String) : Station := s.onTerminal (·.complain line)

/-- How severe the records of a source have to be. -/
def thresholdFor (s : Station) (source : Log.Source) : Log.Threshold :=
  s.filter.threshold (targetOf source)

/-- Writes a record to the log if the threshold for its source admits it. -/
def log (s : Station) (r : Option Log.Record) : Station :=
  match r with
  | some r => if (s.thresholdFor r.source).admits r.level then s.complain (logLine r) else s
  | none => s

def see (s : Station) (e : Event) : Station :=
  let s := s.log (e.record? (s.thresholdFor e.source))
  match e with
  | .systemCall call memory =>
    let (console, r) := s.console.answer call memory
    { s with console }.log r
  | _ => s

end Station

end Micro8080.CommandLine
