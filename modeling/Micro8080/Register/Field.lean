import Micro8080.Register.Selector

/-!
# Registers as instructions name them

An instruction names a byte register by a three-bit field, in which 7 is the accumulator and 6
stands for the byte of memory at HL, and a pair by a two-bit field, in which 3 is the stack
pointer or, where the stack is used, the accumulator with the flags.
-/

namespace Micro8080

/-- A byte register that an instruction can name. -/
inductive Register where
  | b | c | d | e | h | l | a
  deriving DecidableEq, Repr

namespace Register

/-- The register of a three-bit field other than 6. -/
def ofField (n : Nat) : Register :=
  match n % 8 with
  | 0 => b | 1 => c | 2 => d | 3 => e | 4 => h | 5 => l | _ => a

def field : Register → Nat
  | b => 0 | c => 1 | d => 2 | e => 3 | h => 4 | l => 5 | a => 7

/-- The register's letter. -/
def name : Register → String
  | b => "B" | c => "C" | d => "D" | e => "E" | h => "H" | l => "L" | a => "A"

/-- The cell of a register, if it is not the accumulator. -/
def selector? : Register → Option Selector
  | a => none
  | r => some (.ofByteField r.field)

theorem selector?_eq (r : Register) :
    r.selector? =
      match r with
      | b => some .b | c => some .c | d => some .d | e => some .e | h => some .h | l => some .l
      | a => none := by
  cases r <;> rfl

end Register

/-- A pair of registers that an instruction can name. -/
inductive RegisterPair where
  | bc | de | hl | sp
  deriving DecidableEq, Repr

namespace RegisterPair

def ofField (n : Nat) : RegisterPair :=
  match n % 4 with
  | 0 => bc | 1 => de | 2 => hl | _ => sp

def field : RegisterPair → Nat
  | bc => 0 | de => 1 | hl => 2 | sp => 3

/-- The letters that assembly text names a pair by. -/
def name : RegisterPair → String
  | bc => "B" | de => "D" | hl => "H" | sp => "SP"

/-- The cells of the pair. -/
def selector (p : RegisterPair) : Selector := .ofPairField p.field

/-- The cell of the high byte. -/
def high : RegisterPair → Selector
  | bc => .b | de => .d | hl => .h | sp => .spHigh

/-- The cell of the low byte. -/
def low : RegisterPair → Selector
  | bc => .c | de => .e | hl => .l | sp => .spLow

end RegisterPair

/-- Two bytes that an instruction can push and pop. -/
inductive StackPair where
  | bc | de | hl
  /-- The accumulator with the flags. -/
  | psw
  deriving DecidableEq, Repr

namespace StackPair

def ofField (n : Nat) : StackPair :=
  match n % 4 with
  | 0 => bc | 1 => de | 2 => hl | _ => psw

def field : StackPair → Nat
  | bc => 0 | de => 1 | hl => 2 | psw => 3

/-- The letters that assembly text names a pair by. -/
def name : StackPair → String
  | bc => "B" | de => "D" | hl => "H" | psw => "PSW"

end StackPair

end Micro8080
