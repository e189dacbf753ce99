import Micro8080.Json.Value
import Micro8080.Text.Numeral

/-!
# Printing JSON

Each item of a list and each field of an object stands on a line of its own, two blanks further
in than the brackets around it; a list or object with nothing in it is a pair of brackets.
-/

namespace Micro8080.Json

/-- A character inside a JSON string. -/
def escape (c : Char) : String :=
  match c with
  | '"' => "\\\""
  | '\\' => "\\\\"
  | '\n' => "\\n"
  | '\r' => "\\r"
  | '\t' => "\\t"
  | '\x08' => "\\b"
  | '\x0c' => "\\f"
  | c => if c.toNat < 32 then "\\u" ++ Numeral.padded 16 4 c.toNat else c.toString

def quote (s : String) : String := "\"" ++ String.join (s.toList.map escape) ++ "\""

/-- A line break and the blanks at the start of the next line. -/
def lineBreak (depth : Nat) : String := "\n" ++ String.ofList (List.replicate (2 * depth) ' ')

mutual

/-- Appends a value to a text, at a depth of nesting. -/
def Value.append (out : String) (depth : Nat) : Value → String
  | .null => out ++ "null"
  | .bool b => out ++ (if b then "true" else "false")
  | .number n => out ++ toString n
  | .text s => out ++ quote s
  | .list [] => out ++ "[]"
  | .list (x :: xs) =>
    let first := x.append (out ++ "[" ++ lineBreak (depth + 1)) (depth + 1)
    appendItems first (depth + 1) xs ++ lineBreak depth ++ "]"
  | .object [] => out ++ "\x7b\x7d"
  | .object ((name, x) :: fields) =>
    let start := out ++ "\x7b" ++ lineBreak (depth + 1) ++ quote name ++ ": "
    appendFields (x.append start (depth + 1)) (depth + 1) fields ++ lineBreak depth ++ "\x7d"

/-- Appends the items of a list after its first. -/
def appendItems (out : String) (depth : Nat) : List Value → String
  | [] => out
  | x :: xs => appendItems (x.append (out ++ "," ++ lineBreak depth) depth) depth xs

/-- Appends the fields of an object after its first. -/
def appendFields (out : String) (depth : Nat) : List (String × Value) → String
  | [] => out
  | (name, x) :: fields =>
    let start := out ++ "," ++ lineBreak depth ++ quote name ++ ": "
    appendFields (x.append start depth) depth fields

end

def Value.pretty (v : Value) : String := v.append "" 0

end Micro8080.Json
