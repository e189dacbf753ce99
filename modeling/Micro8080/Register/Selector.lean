import Micro8080.Text.Inspection
import Micro8080.Text.Numeral

/-!
# Register selectors

The register file has twelve byte cells.  A selector is a four-bit cell index together with a
flag that widens it to the pair made of that cell and the next one, the high byte first.  Not
every selector has a name, and those whose last cell is beyond the twelfth name nothing at all.
Selectors and their five-bit codes correspond one to one: `ofBits_bits` and `bits_ofBits`.
-/

namespace Micro8080

/-- Where a value is read from or written to in the register file. -/
structure Selector where
  /-- Names the pair that starts at the cell. -/
  pair : Bool
  /-- The cell, or the high cell of the pair. -/
  cell : BitVec 4
  deriving DecidableEq, Repr, Inhabited

namespace Selector

def b : Selector := ⟨false, 0⟩
def c : Selector := ⟨false, 1⟩
def d : Selector := ⟨false, 2⟩
def e : Selector := ⟨false, 3⟩
def h : Selector := ⟨false, 4⟩
def l : Selector := ⟨false, 5⟩
/-- The scratch registers, which programs cannot name. -/
def w : Selector := ⟨false, 6⟩
@[inherit_doc w] def z : Selector := ⟨false, 7⟩
/-- The bytes of the program counter. -/
def pcHigh : Selector := ⟨false, 8⟩
@[inherit_doc pcHigh] def pcLow : Selector := ⟨false, 9⟩
/-- The bytes of the stack pointer. -/
def spHigh : Selector := ⟨false, 10⟩
@[inherit_doc spHigh] def spLow : Selector := ⟨false, 11⟩
def bc : Selector := ⟨true, 0⟩
def de : Selector := ⟨true, 2⟩
def hl : Selector := ⟨true, 4⟩
/-- The scratch pair. -/
def wz : Selector := ⟨true, 6⟩
def pc : Selector := ⟨true, 8⟩
def sp : Selector := ⟨true, 10⟩

/-- The five bits that encode a selector in the control word. -/
def bits (s : Selector) : BitVec 5 := BitVec.ofBool s.pair ++ s.cell

/-- The selector that five bits encode. -/
def ofBits (v : BitVec 5) : Selector := ⟨v.getLsbD 4, v.extractLsb' 0 4⟩

/-- The byte register that a three-bit field names. -/
def ofByteField (n : Nat) : Selector := ⟨false, BitVec.ofNat 4 (n % 8)⟩

/-- The pair that a two-bit field names, where 3 is the stack pointer. -/
def ofPairField (n : Nat) : Selector :=
  match n % 4 with
  | 0 => bc
  | 1 => de
  | 2 => hl
  | _ => sp

/-- The index of the last cell a selector names. -/
def last (s : Selector) : Nat := if s.pair then s.cell.toNat + 1 else s.cell.toNat

/-- The register's conventional name, if it has one. -/
def name? (s : Selector) : Option String :=
  match s.pair, s.cell.toNat with
  | false, 0 => some "B" | false, 1 => some "C" | false, 2 => some "D" | false, 3 => some "E"
  | false, 4 => some "H" | false, 5 => some "L" | false, 6 => some "W" | false, 7 => some "Z"
  | false, 8 => some "PCP" | false, 9 => some "PCC"
  | false, 10 => some "SPS" | false, 11 => some "SPP"
  | true, 0 => some "BC" | true, 2 => some "DE" | true, 4 => some "HL" | true, 6 => some "WZ"
  | true, 8 => some "PC" | true, 10 => some "SP"
  | _, _ => none

/-- The register's name, with a question mark for a selector that has none. -/
def name (s : Selector) : String := s.name?.getD "?"

def inspect (s : Selector) : String := Inspection.call s.name [Numeral.binary 5 s.bits.toNat]

theorem ofBits_bits (s : Selector) : ofBits s.bits = s := by
  obtain ⟨pair, cell⟩ := s
  revert pair cell
  decide

theorem bits_ofBits (v : BitVec 5) : (ofBits v).bits = v := by
  revert v
  decide

end Selector

end Micro8080
