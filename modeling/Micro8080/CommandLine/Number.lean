/-!
# Numbers on the command line

A number is decimal, or hexadecimal after `0x` or `0X`; a plus sign may stand before its digits.
It must be below 2^64, however many zeros it starts with.
-/

namespace Micro8080.CommandLine

/-- The value of a digit, in either case, if it is one in the base. -/
def digitValue? (base : Nat) (c : Char) : Option Nat :=
  let value? :=
    if '0' ≤ c ∧ c ≤ '9' then some (c.toNat - '0'.toNat)
    else if 'a' ≤ c ∧ c ≤ 'f' then some (c.toNat - 'a'.toNat + 10)
    else if 'A' ≤ c ∧ c ≤ 'F' then some (c.toNat - 'A'.toNat + 10)
    else none
  value?.filter (· < base)

/-- The value of digits, given that of the digits before them. -/
def digitsValue? (base : Nat) : Nat → List Char → Option Nat
  | n, [] => some n
  | n, c :: cs =>
    match digitValue? base c with
    | some d => digitsValue? base (n * base + d) cs
    | none => none

/-- The value of one digit or more, after a plus sign or not. -/
def unsigned? (base : Nat) (cs : List Char) : Option Nat :=
  let digits :=
    match cs with
    | '+' :: rest => rest
    | cs => cs
  if digits.isEmpty then none else digitsValue? base 0 digits

/-- The least number that is too large, which is 2^64. -/
def numberBound : Nat := 0x10000000000000000

/-- The number a text stands for, if it stands for one below the bound. -/
def number? (text : String) : Option Nat :=
  let value? :=
    match text.toList with
    | '0' :: 'x' :: rest => unsigned? 16 rest
    | '0' :: 'X' :: rest => unsigned? 16 rest
    | cs => unsigned? 10 cs
  value?.filter (· < numberBound)

end Micro8080.CommandLine
