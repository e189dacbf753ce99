import Micro8080.CommandLine.Number

/-!
# Arguments

The first argument names a command, or asks for help.  The rest are options of the command and
exactly one path, in any order.  An option that takes a value takes the next argument, whatever
it looks like, and the last of several values counts.
-/

namespace Micro8080.CommandLine

inductive Command where
  | run
  /-- Carry out some instructions and show each. -/
  | step
  | disassemble
  deriving DecidableEq, Repr

/-- A command with its options. -/
structure Arguments where
  command : Command
  input : String
  labels : Option String := none
  /-- Half-ticks to run, or instructions to carry out. -/
  limit : Option Nat := none
  json : Bool := false
  /-- How often more log output was asked for; 255 at most. -/
  verbosity : Nat := 0
  deriving DecidableEq, Repr

/-- Why arguments cannot be carried out. -/
inductive UsageError where
  | missingCommand
  | unknownCommand (name : String)
  /-- Help was asked for after the command. -/
  | help
  | missingValue (option : String)
  | invalidNumber (option text : String)
  | unknownOption (option : String)
  | multipleInputs
  | missingInput
  deriving DecidableEq, Repr

def UsageError.message : UsageError → String
  | missingCommand => "missing command"
  | unknownCommand name => "unknown command: " ++ name
  | help => "help"
  | missingValue option => "missing value for " ++ option
  | invalidNumber option text => "invalid number for " ++ option ++ ": " ++ text
  | unknownOption option => "unknown option: " ++ option
  | multipleInputs => "multiple input paths provided"
  | missingInput => "missing input path"

namespace Command

def ofName? : String → Option Command
  | "run" => some .run
  | "step" => some .step
  | "disasm" => some .disassemble
  | _ => none

/-- The names of the option that limits a command. -/
def limitOptions : Command → List String
  | run => ["-m", "--max"]
  | step => ["-n", "--count"]
  | disassemble => []

/-- The command runs the machine, and so has a log and snapshots. -/
def runs : Command → Bool
  | run | step => true
  | disassemble => false

end Command

/-- What an argument is, where no value is expected. -/
inductive Token where
  | help
  | labels
  | verbose
  | json
  | limit
  | unknown
  | input
  deriving DecidableEq, Repr

/-- An argument under a command. -/
def Token.of (command : Command) (arg : String) : Token :=
  if arg ∈ ["-h", "--help"] then .help
  else if arg ∈ ["-l", "--labels"] then .labels
  else if command.runs ∧ arg ∈ ["-v", "--verbose"] then .verbose
  else if command.runs ∧ arg ∈ ["-j", "--json"] then .json
  else if arg ∈ command.limitOptions then .limit
  else if arg.startsWith "-" then .unknown
  else .input

/-- The options read so far. -/
structure Draft where
  input : Option String := none
  labels : Option String := none
  limit : Option Nat := none
  json : Bool := false
  verbosity : Nat := 0
  deriving DecidableEq, Repr

/-- Reads the arguments after the command. -/
def Draft.read (command : Command) : Draft → List String → Except UsageError Draft
  | draft, [] => .ok draft
  | draft, arg :: rest =>
    match Token.of command arg with
    | .help => .error .help
    | .labels =>
      match rest with
      | [] => .error (.missingValue "--labels")
      | path :: rest => Draft.read command { draft with labels := some path } rest
    | .verbose =>
      Draft.read command { draft with verbosity := min 255 (draft.verbosity + 1) } rest
    | .json => Draft.read command { draft with json := true } rest
    | .limit =>
      match rest with
      | [] => .error (.missingValue arg)
      | text :: rest =>
        match number? text with
        | some n => Draft.read command { draft with limit := some n } rest
        | none => .error (.invalidNumber arg text)
    | .unknown => .error (.unknownOption arg)
    | .input =>
      match draft.input with
      | some _ => .error .multipleInputs
      | none => Draft.read command { draft with input := some arg } rest

/-- The options of a command from the arguments after it. -/
def Arguments.ofOptions (command : Command) (args : List String) : Except UsageError Arguments :=
  match Draft.read command {} args with
  | .error e => .error e
  | .ok draft =>
    match draft.input with
    | none => .error .missingInput
    | some input =>
      .ok { command, input, labels := draft.labels, limit := draft.limit, json := draft.json,
            verbosity := draft.verbosity }

inductive Request where
  | help
  | carryOut (args : Arguments)
  deriving DecidableEq, Repr

/-- What all the arguments ask for. -/
def Request.ofArguments : List String → Except UsageError Request
  | [] => .error .missingCommand
  | first :: rest =>
    if first ∈ ["-h", "--help"] then .ok .help
    else
      match Command.ofName? first with
      | none => .error (.unknownCommand first)
      | some command => (Arguments.ofOptions command rest).map .carryOut

def Request.paths : Request → List String
  | .help => []
  | .carryOut a => a.input :: a.labels.toList

/-- The help text, which ends with a line break. -/
def usage : String :=
  String.join (lines.map (· ++ "\n"))
where
  lines : List String := [
    "Usage: sapsim-run <command> <image> [options]",
    "",
    "Commands:",
    "  run    <image>  Run until HLT or until the half-tick budget is spent",
    "  step   <image>  Execute instructions one at a time, printing each",
    "  disasm <image>  List the image",
    "",
    "Options:",
    "  -m, --max <n>        Half-tick budget for run (default 2000)",
    "  -n, --count <n>      Instructions to execute for step (default 1)",
    "  -l, --labels <file>  JSON label map, e.g. \x7b\"start\": 0, \"loop\": 12\x7d",
    "  -j, --json           Print snapshots as JSON; console output moves to stderr",
    "  -v, --verbose        Log to stderr; repeat for debug and trace output",
    "  -h, --help           Show this help message",
    "",
    "Exit status: 0 on HLT or after stepping, 2 when the budget runs out, 1 on error.",
    "",
    "Examples:",
    "  sapsim-run run hello.bin",
    "  sapsim-run run hello.bin --max 10000 --labels hello.labels.json",
    "  sapsim-run step hello.bin -n 5 --json",
    "  sapsim-run disasm hello.bin"]

end Micro8080.CommandLine
