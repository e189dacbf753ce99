import Micro8080.Control.Word
import Micro8080.Fault

/-!
# The bus

One part at most may drive the bus.  The bus takes the word of the part that does, a byte in the
low half, and rests at zero when none does.
-/

namespace Micro8080.Bus

/-- What the parts that can drive the bus have in their output latches. -/
structure Sources where
  acc : UInt8 := 0
  memory : UInt8 := 0
  register : UInt16 := 0
  flags : UInt8 := 0

/-- The word that the bus settles on. -/
def settle (w : ControlWord) (s : Sources) : Except Fault UInt16 :=
  if w.drivers > 1 then .error (.busContention w.drivers)
  else if w.driveAcc then .ok s.acc.toUInt16
  else if w.driveMemory then .ok s.memory.toUInt16
  else if w.driveRegister then .ok s.register
  else if w.driveFlags then .ok s.flags.toUInt16
  else .ok 0

end Micro8080.Bus
