import Micro8080.Console.Basic
import Micro8080.Machine.Event

/-!
# A host that can be looked at

A host watches a machine: it answers system calls in one of three ways and keeps a log of
everything up to a threshold.
-/

namespace Micro8080

/-- A system call and what it found in memory. -/
structure CallRecord where
  call : SystemCall
  /-- The byte at the argument. -/
  byte : UInt8
  /-- The text at the argument, if it ends. -/
  text : Option (List UInt8)

/-- How a host answers system calls. -/
inductive Host.Handler where
  | ignore
  | record
  | console
  deriving DecidableEq, Repr

/-- What a host remembers. -/
structure Host where
  handler : Host.Handler := .ignore
  calls : Array CallRecord := #[]
  /-- The console installed last. -/
  console : Option (Console Buffer) := none
  threshold : Log.Threshold := none
  log : Array Log.Record := #[]

namespace Host

/-- Installs a console over a buffer. -/
def installConsole (h : Host) (sink : Buffer) : Host :=
  { h with handler := .console, console := some { sink } }

/-- Keeps a record that the threshold admits. -/
def logged (h : Host) (r : Option Log.Record) : Host :=
  match r with
  | some r => if h.threshold.admits r.level then { h with log := h.log.push r } else h
  | none => h

def answer (h : Host) (call : SystemCall) (memory : Memory) : Host :=
  match h.handler, h.console with
  | .record, _ =>
    let entry : CallRecord :=
      { call := call
        byte := memory.read call.argument
        text := memory.readUntil call.argument Console.terminator }
    { h with calls := h.calls.push entry }
  | .console, some console =>
    let (console, r) := console.answer call memory
    { h with console := some console }.logged r
  | _, _ => h

def see (h : Host) (e : Event) : Host :=
  let h :=
    match e.record? h.threshold with
    | some r => { h with log := h.log.push r }
    | none => h
  match e with
  | .systemCall call memory => h.answer call memory
  | _ => h

end Host

end Micro8080
