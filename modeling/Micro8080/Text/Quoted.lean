import Micro8080.Text.Numeral
import Micro8080.Text.Unseen

/-!
# Quoted text

Inspection shows a text between quotation marks, with an escape for each character that would
end the quotation, start an escape or not show on its own.
-/

namespace Micro8080.Quoted

/-- A character inside quotation marks. -/
def escape (c : Char) : String :=
  match c with
  | '"' => "\\\""
  | '\\' => "\\\\"
  | '\n' => "\\n"
  | '\r' => "\\r"
  | '\t' => "\\t"
  | '\x00' => "\\0"
  | c =>
    if Unseen.contains c then "\\u\x7b" ++ Numeral.padded 16 1 c.toNat ++ "\x7d"
    else c.toString

/-- A text between quotation marks. -/
def quote (s : String) : String := "\"" ++ String.join (s.toList.map escape) ++ "\""

end Micro8080.Quoted
