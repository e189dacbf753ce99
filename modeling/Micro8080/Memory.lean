import Micro8080.Control.Word
import Micro8080.Fault
import Micro8080.Word

/-!
# Memory

2048 bytes behind an address register.  Addresses are words, of which the lowest eleven bits are
decoded, so that memory repeats every 2048 addresses.  A program image is copied to address zero.
`readUntil` collects the bytes up to a terminator and gives up after one pass over memory.
-/

namespace Micro8080

/-- The bytes, the address register, and the latch that memory drives the bus from. -/
structure Memory where
  bytes : Vector UInt8 2048 := Vector.replicate 2048 0
  address : UInt16 := 0
  /-- The addressed byte at the last tock. -/
  out : UInt8 := 0
  deriving DecidableEq, Inhabited

namespace Memory

def capacity : Nat := 2048

def read (m : Memory) (a : UInt16) : UInt8 := m.bytes[a.toNat % 2048]

/-- The word at an address, low byte first. -/
def readWord (m : Memory) (a : UInt16) : UInt16 := Word.ofBytes (m.read (a + 1)) (m.read a)

def write (m : Memory) (a : UInt16) (v : UInt8) : Memory :=
  { m with bytes := m.bytes.set (a.toNat % 2048) v }

/-- The bytes from an address on, up to and without the first terminator among the next `n`. -/
def readUntilWithin (m : Memory) (terminator : UInt8) : Nat → UInt16 → Option (List UInt8)
  | 0, _ => none
  | n + 1, a =>
    let v := m.read a
    if v = terminator then some []
    else (m.readUntilWithin terminator n (a + 1)).map (v :: ·)

/-- The bytes from an address on, up to and without the first terminator, if there is one. -/
def readUntil (m : Memory) (a : UInt16) (terminator : UInt8) : Option (List UInt8) :=
  m.readUntilWithin terminator capacity a

/-- Copies an image to address zero; the bytes after it stay. -/
def load (m : Memory) (image : Array UInt8) : Except Fault Memory :=
  if image.size ≤ capacity then
    .ok { m with bytes := .ofFn fun i => image[i.val]?.getD m.bytes[i] }
  else .error (.imageTooLarge image.size capacity)

/-- The first `n` bytes, or all of them if there are fewer. -/
def window (m : Memory) (n : Nat) : Array UInt8 := m.bytes.toArray.extract 0 n

/-! ## Clock edges -/

/-- The rising edge: the address register is loaded, or the addressed byte is written. -/
def rise (m : Memory) (w : ControlWord) (bus : UInt16) : Except Fault Memory :=
  match w.loadAddress, w.writeMemory with
  | true, true => .error .memoryConflict
  | true, false => .ok { m with address := bus }
  | false, true => .ok (m.write m.address (Word.low bus))
  | false, false => .ok m

/-- The settling phase: the addressed byte goes to the output latch. -/
def settle (m : Memory) : Memory := { m with out := m.read m.address }

end Memory

end Micro8080
