import Micro8080.Control.Word
import Micro8080.Fault
import Micro8080.Word

/-!
# The register file

Twelve byte cells hold B, C, D, E, H and L, the scratch registers W and Z, and the bytes of the
program counter and of the stack pointer.  A selector names one cell or two neighbours, the high
byte in the lower cell; pairs that start at an odd cell straddle two registers and are as good
as any other.  The file also keeps the first word ever written to the stack pointer as a pair,
which is where the stack of the running program starts.
-/

namespace Micro8080

/-- The cells, the latch that the file drives the bus from, and the base of the stack. -/
structure RegisterFile where
  /-- B C D E H L W Z and the bytes of PC and SP, in the order of the selectors. -/
  cells : Vector UInt8 12 := Vector.replicate 12 0
  /-- What the register to read held at the last tock. -/
  out : UInt16 := 0
  /-- The first word written to SP as a pair since power-on. -/
  stackBase : Option UInt16 := none
  deriving DecidableEq, Inhabited

namespace RegisterFile

/-- The word a selector reads, given that its cells exist. -/
def value (r : RegisterFile) (s : Selector) (h : s.last < 12) : UInt16 :=
  if hp : s.pair then
    have : s.cell.toNat + 1 < 12 := by simpa [Selector.last, hp] using h
    Word.ofBytes r.cells[s.cell.toNat] r.cells[s.cell.toNat + 1]
  else
    have : s.cell.toNat < 12 := by simpa [Selector.last, hp] using h
    r.cells[s.cell.toNat].toUInt16

/-- The cells after a word is put where a selector says, given that its cells exist.  A byte
register takes the low byte. -/
def store (r : RegisterFile) (s : Selector) (h : s.last < 12) (v : UInt16) : RegisterFile :=
  if hp : s.pair then
    have : s.cell.toNat + 1 < 12 := by simpa [Selector.last, hp] using h
    { r with
      cells := (r.cells.set s.cell.toNat (Word.high v)).set (s.cell.toNat + 1) (Word.low v) }
  else
    have : s.cell.toNat < 12 := by simpa [Selector.last, hp] using h
    { r with cells := r.cells.set s.cell.toNat (Word.low v) }

def read (r : RegisterFile) (s : Selector) : Except Fault UInt16 :=
  if h : s.last < 12 then .ok (r.value s h) else .error (.unknownRegister s.bits.toNat)

/-- Writes a byte register or a pair.  The first pair write to SP sets the stack base. -/
def write (r : RegisterFile) (s : Selector) (v : UInt16) : Except Fault RegisterFile :=
  if h : s.last < 12 then
    let stored := r.store s h v
    .ok (if s = .sp then { stored with stackBase := r.stackBase <|> some v } else stored)
  else .error (.unknownRegister s.bits.toNat)

/-- Counts a pair up or down, modulo 65536. -/
def count (r : RegisterFile) (s : Selector) (k : Count) : Except Fault RegisterFile :=
  if !s.pair then .error (.countOnByte s.bits.toNat)
  else if h : s.last < 12 then .ok (r.store s h (r.value s h + k.delta))
  else .error (.unknownRegister s.bits.toNat)

/-! ## Clock edges -/

/-- The rising edge: the register to write counts or is loaded from the bus. -/
def rise (r : RegisterFile) (w : ControlWord) (bus : UInt16) : Except Fault RegisterFile :=
  if w.count = .none then
    if w.loadRegister then r.write w.write bus else .ok r
  else r.count w.write w.count

/-- The settling phase: the register to read goes to the output latch. -/
def settle (r : RegisterFile) (w : ControlWord) : Except Fault RegisterFile :=
  (r.read w.read).map fun v => { r with out := v }

/-! ## Named registers -/

def b (r : RegisterFile) : UInt8 := r.cells[0]
def c (r : RegisterFile) : UInt8 := r.cells[1]
def d (r : RegisterFile) : UInt8 := r.cells[2]
def e (r : RegisterFile) : UInt8 := r.cells[3]
def h (r : RegisterFile) : UInt8 := r.cells[4]
def l (r : RegisterFile) : UInt8 := r.cells[5]
def bc (r : RegisterFile) : UInt16 := Word.ofBytes r.cells[0] r.cells[1]
def de (r : RegisterFile) : UInt16 := Word.ofBytes r.cells[2] r.cells[3]
def hl (r : RegisterFile) : UInt16 := Word.ofBytes r.cells[4] r.cells[5]
/-- The scratch pair. -/
def wz (r : RegisterFile) : UInt16 := Word.ofBytes r.cells[6] r.cells[7]
def pc (r : RegisterFile) : UInt16 := Word.ofBytes r.cells[8] r.cells[9]
def sp (r : RegisterFile) : UInt16 := Word.ofBytes r.cells[10] r.cells[11]

end RegisterFile

end Micro8080
