import Micro8080.CommandLine.Commands

/-!
# The program

Reads the files that the arguments name and the log filter in the environment, and leaves the rest
to `CommandLine.execute`, which is a function.
-/

namespace Micro8080

/-- The environment variable that may hold a log filter. -/
def logVariable : String := "RUST_LOG"

/-- The system's number and words for a failure, if it has any. -/
def systemFailure? : IO.Error → Option (Nat × String)
  | .noFileOrDirectory _ code details
  | .permissionDenied _ code details
  | .inappropriateType _ code details
  | .invalidArgument _ code details
  | .resourceExhausted _ code details
  | .otherError code details
  | .hardwareFault code details => some (code.toNat, details)
  | _ => none

/-- The number of a failure, which some calls give with the opposite sign. -/
def systemNumber (code : Nat) : Nat :=
  if code < 0x80000000 then code else 0x100000000 - code

/-- The system's words for the common failures to read a file. -/
def systemWords : List (Nat × String) :=
  [(1, "Operation not permitted"), (2, "No such file or directory"), (5, "Input/output error"),
    (12, "Cannot allocate memory"), (13, "Permission denied"), (20, "Not a directory"),
    (21, "Is a directory"), (22, "Invalid argument"), (23, "Too many open files in system"),
    (24, "Too many open files"), (36, "File name too long"),
    (40, "Too many levels of symbolic links")]

/-- Why a file cannot be read, with the number of the reason. -/
def systemReason (e : IO.Error) : String :=
  match systemFailure? e with
  | none => toString e
  | some (code, details) =>
    let number := systemNumber code
    s!"{(systemWords.lookup number).getD details} (os error {number})"

/-- The bytes of a file, or the system's words for why there are none. -/
def readPath (path : String) : IO (Except String ByteArray) := do
  match ← (IO.FS.readBinFile path).toBaseIO with
  | .ok bytes => return .ok bytes
  | .error e => return .error (systemReason e)

/-- The files that the arguments name, each read once. -/
def readFiles (args : List String) : IO CommandLine.Files := do
  let paths := match CommandLine.Request.ofArguments args with
    | .ok request => request.paths
    | .error _ => []
  let contents ← paths.mapM fun path => return (path, ← readPath path)
  return fun path => (contents.lookup path).getD (.error "not read")

end Micro8080

def main (args : List String) : IO UInt32 := do
  let report := Micro8080.CommandLine.execute (← Micro8080.readFiles args)
    ((← IO.getEnv Micro8080.logVariable).getD "") args
  let out ← IO.getStdout
  let err ← IO.getStderr
  out.write report.out
  out.flush
  err.write report.err
  err.flush
  return report.status.toUInt32
