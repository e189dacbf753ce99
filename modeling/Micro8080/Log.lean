/-!
# Log records

A log record is a sentence with a level and the part of the program that it comes from.
-/

namespace Micro8080.Log

/-- How severe a record is. -/
inductive Level where
  | error | warn | info | debug | trace
  deriving DecidableEq, Repr

namespace Level

/-- The name of a level, in capitals. -/
def name : Level → String
  | error => "ERROR" | warn => "WARN" | info => "INFO" | debug => "DEBUG" | trace => "TRACE"

/-- The rank of a level; the most severe comes first. -/
def rank : Level → Nat
  | error => 1 | warn => 2 | info => 3 | debug => 4 | trace => 5

end Level

/-- The least severe level to keep, or `none` to keep nothing. -/
abbrev Threshold := Option Level

/-- Records of the level are kept. -/
def Threshold.admits (t : Threshold) (l : Level) : Bool :=
  match t with
  | none => false
  | some least => l.rank ≤ least.rank

/-- The threshold that a level's name in letters of either case stands for; `off` keeps
nothing. -/
def Threshold.ofName? (s : String) : Option Threshold :=
  match s.toLower with
  | "off" => some none
  | "error" => some (some .error)
  | "warn" => some (some .warn)
  | "info" => some (some .info)
  | "debug" => some (some .debug)
  | "trace" => some (some .trace)
  | _ => none

/-- The threshold of a text, which is that of warnings if the text names no level. -/
def Threshold.ofText (s : String) : Threshold := (ofName? s).getD (some .warn)

/-- The name of a threshold, in capitals. -/
def Threshold.name : Threshold → String
  | none => "OFF"
  | some l => l.name

inductive Source where
  | machine | sequencer | console | debugger
  deriving DecidableEq, Repr

/-- A logged sentence. -/
structure Record where
  level : Level
  source : Source
  text : String
  deriving DecidableEq, Repr

end Micro8080.Log
