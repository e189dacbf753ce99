import Micro8080.Console.Sink
import Micro8080.Control.Microcode
import Micro8080.Log
import Micro8080.Memory

/-!
# The console

The console answers system calls by writing to a sink.  Function 2 prints the character in E,
function 9 the text at DE up to a dollar sign, and the rest do nothing.  The first failure to
write is kept, and from then on nothing is written.
-/

namespace Micro8080

/-- A console, how often it was called, and why it writes no more. -/
structure Console (σ : Type) [Sink σ] where
  sink : σ
  calls : Nat := 0
  failure : Option (Sink.Failure σ) := none

namespace Console

def printCharacter : UInt8 := 2

def printText : UInt8 := 9

/-- The dollar sign that ends a text. -/
def terminator : UInt8 := 0x24

/-- What a system call asks a console for. -/
inductive Request where
  | print (bytes : List UInt8)
  /-- A text that does not end. -/
  | unterminated (address : UInt16)
  | unknown (call : SystemCall)
  deriving DecidableEq, Repr

/-- What a system call asks for, given the contents of memory. -/
def request (call : SystemCall) (memory : Memory) : Request :=
  if call.function = printCharacter then .print [Word.low call.argument]
  else if call.function = printText then
    match memory.readUntil call.argument terminator with
    | some bytes => .print bytes
    | none => .unterminated call.argument
  else .unknown call

variable {σ : Type} [Sink σ]

/-- Writes bytes and waits for them to arrive. -/
def deliver (sink : σ) (bytes : List UInt8) : Except (Sink.Failure σ) Unit × σ :=
  match Sink.writeAll sink bytes with
  | (.ok _, sink) => Sink.flush sink
  | failed => failed

/-- Prints bytes, unless printing failed before.  A failure is logged. -/
def print (c : Console σ) (bytes : List UInt8) : Console σ × Option Log.Record :=
  match c.failure with
  | some _ => (c, none)
  | none =>
    match deliver c.sink bytes with
    | (.ok _, sink) => ({ c with sink }, none)
    | (.error failure, sink) =>
      ({ c with sink, failure := some failure },
        some ⟨.error, .console, "console write failed: " ++ Sink.message failure⟩)

def answer (c : Console σ) (call : SystemCall) (memory : Memory) :
    Console σ × Option Log.Record :=
  let c := { c with calls := c.calls + 1 }
  match request call memory with
  | .print bytes => c.print bytes
  | .unterminated address =>
    (c, some ⟨.warn, .console, "unterminated string at " ++ Numeral.hex 4 address.toNat⟩)
  | .unknown call =>
    (c, some ⟨.debug, .console,
      s!"ignoring system call {call.function.toNat} (DE={Numeral.hex 4 call.argument.toNat})"⟩)

end Console

end Micro8080
