/-!
# Sinks

A sink takes bytes.  It may take only some of the bytes it is offered, and it may fail, in ways of
its own.  `Sink.writeAll` offers the rest again until all is taken.  `Buffer` is a sink in memory
that can be given a limit.
-/

namespace Micro8080

/-- Something that takes bytes. -/
class Sink (σ : Type) where
  /-- Why a sink takes no more. -/
  Failure : Type
  /-- The sink took no byte and did not fail. -/
  writeZero : Failure
  /-- A failure in words. -/
  message : Failure → String
  /-- Offers bytes; the answer is how many of them were taken, from the front.  An offer that is
  interrupted is made again, so that an interruption is never the answer. -/
  write : σ → List UInt8 → Except Failure Nat × σ
  /-- Waits until the bytes taken are where they should be. -/
  flush : σ → Except Failure Unit × σ

/-- Offers bytes until all are taken. -/
def Sink.writeAll {σ : Type} [Sink σ] (s : σ) (bytes : List UInt8) :
    Except (Sink.Failure σ) Unit × σ :=
  match bytes with
  | [] => (.ok (), s)
  | b :: rest =>
    match Sink.write s (b :: rest) with
    | (.error failure, s) => (.error failure, s)
    | (.ok 0, s) => (.error Sink.writeZero, s)
    | (.ok (taken + 1), s) => Sink.writeAll s (rest.drop taken)
termination_by bytes.length
decreasing_by
  simp only [List.length_drop, List.length_cons]
  omega

/-- How a write fails. -/
inductive WriteError where
  /-- Nobody reads any more. -/
  | brokenPipe
  | writeZero
  | other
  deriving DecidableEq, Repr

def WriteError.message : WriteError → String
  | brokenPipe => "broken pipe"
  | writeZero => "failed to write whole buffer"
  | other => "other error"

/-- How a full buffer refuses. -/
inductive Buffer.Refusal where
  /-- A write fails. -/
  | brokenPipe
  | takesNothing
  /-- A write fails, and so does every flush once the buffer is full. -/
  | failingFlush
  deriving DecidableEq, Repr

/-- Bytes in memory. -/
structure Buffer where
  bytes : Array UInt8 := #[]
  /-- How many bytes there may be. -/
  limit : Option Nat := none
  refusal : Buffer.Refusal := .brokenPipe
  deriving DecidableEq

namespace Buffer

/-- How many of `n` more bytes there is room for. -/
def room (s : Buffer) (n : Nat) : Nat :=
  match s.limit with
  | none => n
  | some limit => min n (limit - s.bytes.size)

def full (s : Buffer) : Bool :=
  match s.limit with
  | none => false
  | some limit => limit ≤ s.bytes.size

/-- Takes the bytes there is room for. -/
def write (s : Buffer) (bytes : List UInt8) : Except WriteError Nat × Buffer :=
  if s.full then (if s.refusal = .takesNothing then .ok 0 else .error .brokenPipe, s)
  else
    let taken := s.room bytes.length
    (.ok taken, { s with bytes := s.bytes ++ bytes.take taken })

/-- Has nothing to wait for. -/
def flush (s : Buffer) : Except WriteError Unit × Buffer :=
  (if s.refusal = .failingFlush && s.full then .error .other else .ok (), s)

instance : Sink Buffer where
  Failure := WriteError
  writeZero := .writeZero
  message := WriteError.message
  write := write
  flush := flush

end Buffer

end Micro8080
