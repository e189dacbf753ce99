/-!
# Reading a JSON object of numbers

A label map is one JSON object whose values are integers below 65536, written without sign,
fraction, exponent or needless zeros.  Blanks, tabs and line ends may stand between the parts.
Strings follow the JSON grammar: control characters must be escaped, and an escaped surrogate
must be the first of a pair.  Anything else is no label map.
-/

namespace Micro8080.Json.NumberMap

/-- Drops what may stand between the parts. -/
def skipBlank (cs : List Char) : List Char :=
  cs.dropWhile fun c => c == ' ' || c == '\n' || c == '\t' || c == '\r'

def hexValue? (c : Char) : Option Nat :=
  if '0' ≤ c ∧ c ≤ '9' then some (c.toNat - '0'.toNat)
  else if 'a' ≤ c ∧ c ≤ 'f' then some (c.toNat - 'a'.toNat + 10)
  else if 'A' ≤ c ∧ c ≤ 'F' then some (c.toNat - 'A'.toNat + 10)
  else none

/-- The 16-bit unit of four hexadecimal digits. -/
def unit? (a b c d : Char) : Option Nat := do
  let a ← hexValue? a
  let b ← hexValue? b
  let c ← hexValue? c
  let d ← hexValue? d
  return ((a * 16 + b) * 16 + c) * 16 + d

/-- The character that an escape of one letter stands for. -/
def letterEscape? (c : Char) : Option Char :=
  match c with
  | '"' => some '"'
  | '\\' => some '\\'
  | '/' => some '/'
  | 'b' => some '\x08'
  | 'f' => some '\x0c'
  | 'n' => some '\n'
  | 'r' => some '\r'
  | 't' => some '\t'
  | _ => none

/-- A unit that starts a pair. -/
def isLeading (u : Nat) : Bool := 0xD800 ≤ u && u ≤ 0xDBFF

/-- A unit that ends a pair. -/
def isTrailing (u : Nat) : Bool := 0xDC00 ≤ u && u ≤ 0xDFFF

/-- The character of a pair of units. -/
def ofPair (u v : Nat) : Char := Char.ofNat (0x10000 + (u - 0xD800) * 0x400 + (v - 0xDC00))

/-- Reads a string after its first quotation mark, given the characters read so far in reverse;
the answer is the string and what follows it. -/
def readString (read : List Char) : List Char → Option (String × List Char)
  | '"' :: rest => some (String.ofList read.reverse, rest)
  | '\\' :: 'u' :: a :: b :: c :: d :: rest =>
    match unit? a b c d with
    | none => none
    | some u =>
      if isLeading u then
        match rest with
        | '\\' :: 'u' :: e :: f :: g :: h :: rest =>
          match unit? e f g h with
          | none => none
          | some v => if isTrailing v then readString (ofPair u v :: read) rest else none
        | _ => none
      else if isTrailing u then none
      else readString (Char.ofNat u :: read) rest
  | '\\' :: c :: rest =>
    match letterEscape? c with
    | none => none
    | some c => readString (c :: read) rest
  | c :: rest => if c.toNat < 32 ∨ c = '\\' then none else readString (c :: read) rest
  | [] => none

/-- Reads a number below 65536; the answer is the number and what follows its digits. -/
def readNumber (cs : List Char) : Option (UInt16 × List Char) :=
  let digits := cs.takeWhile Char.isDigit
  let n := digits.foldl (fun n c => n * 10 + (c.toNat - '0'.toNat)) 0
  match digits with
  | [] => none
  | '0' :: _ :: _ => none
  | _ => if n < 65536 then some (.ofNat n, cs.dropWhile Char.isDigit) else none

/-- Reads a name, a colon and a number. -/
def readMember (cs : List Char) : Option ((String × UInt16) × List Char) :=
  match skipBlank cs with
  | '"' :: rest => do
    let (name, rest) ← readString [] rest
    match skipBlank rest with
    | ':' :: rest =>
      let (n, rest) ← readNumber (skipBlank rest)
      return ((name, n), rest)
    | _ => none
  | _ => none

/-- Reads at most `n` members with commas between them, up to the closing bracket. -/
def readMembers : Nat → List Char → Option (List (String × UInt16) × List Char)
  | 0, _ => none
  | n + 1, cs => do
    let (member, rest) ← readMember cs
    match skipBlank rest with
    | ',' :: rest =>
      let (members, rest) ← readMembers n rest
      return (member :: members, rest)
    | '}' :: rest => return ([member], rest)
    | _ => none

/-- The members of an object, in the order they are written, if the text is one.  A member takes
more than one character, so there are fewer members than characters. -/
def read? (text : String) : Option (List (String × UInt16)) :=
  match skipBlank text.toList with
  | '{' :: rest =>
    let body :=
      match skipBlank rest with
      | '}' :: rest => some ([], rest)
      | rest => readMembers rest.length rest
    match body with
    | some (members, rest) => if (skipBlank rest).isEmpty then some members else none
    | none => none
  | _ => none

end Micro8080.Json.NumberMap
