/-!
# Numerals

Addresses, opcodes and control words are shown as numerals of a fixed least width: zeros stand
in front of the digits until the width is reached, and a number that needs more digits than
that keeps all of them.  `0x`, `0o` and `0b` mark the base and do not count as width.
-/

namespace Micro8080.Numeral

/-- The digits of `n` in `base`, least significant last, filled with zeros to `width`. -/
def padded (base width n : Nat) : String :=
  String.ofList ((Nat.toDigits base n).leftpad width '0')

/-- A hexadecimal numeral with at least `width` lower-case digits. -/
def hex (width n : Nat) : String := "0x" ++ padded 16 width n

/-- An octal numeral with at least `width` digits. -/
def octal (width n : Nat) : String := "0o" ++ padded 8 width n

/-- A binary numeral with at least `width` digits. -/
def binary (width n : Nat) : String := "0b" ++ padded 2 width n

/-- Hexadecimal digits in capitals, without a mark. -/
def hexCapital (width n : Nat) : String := (padded 16 width n).toUpper

end Micro8080.Numeral
