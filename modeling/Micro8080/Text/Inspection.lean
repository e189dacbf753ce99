/-!
# Inspection text

Diagnostics show a value by the name of its form and the fields it holds, as in
`Step { pc: 3 }` or `Some(Instruction)`.  The functions here put such texts together from
texts for the parts.
-/

namespace Micro8080.Inspection

/-- A form with its arguments in parentheses, or its bare name if it has none. -/
def call (name : String) (args : List String) : String :=
  match args with
  | [] => name
  | args => name ++ "(" ++ ", ".intercalate args ++ ")"

/-- A form with named fields in braces. -/
def fields (name : String) (parts : List (String × String)) : String :=
  name ++ " \x7b " ++ ", ".intercalate (parts.map fun p => p.1 ++ ": " ++ p.2) ++ " \x7d"

/-- A form with named fields in braces, of which only some are shown. -/
def someFields (name : String) (parts : List (String × String)) : String :=
  name ++ " \x7b " ++ ", ".intercalate (parts.map fun p => p.1 ++ ": " ++ p.2) ++ ", .. \x7d"

def optional (x : Option String) : String :=
  match x with
  | none => "None"
  | some text => call "Some" [text]

def bool (b : Bool) : String := if b then "true" else "false"

end Micro8080.Inspection
