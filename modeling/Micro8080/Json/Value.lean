/-!
# JSON values

Values whose numbers are natural, which is all that this program writes.
-/

namespace Micro8080.Json

/-- A JSON value without fractions and signs. -/
inductive Value where
  | null
  | bool (b : Bool)
  | number (n : Nat)
  | text (s : String)
  | list (items : List Value)
  | object (fields : List (String × Value))
  deriving Inhabited

namespace Value

/-- An object whose fields stand in the order of their names. -/
def record (fields : List (String × Value)) : Value :=
  .object (fields.mergeSort fun a b => decide (a.1 ≤ b.1))

/-- A value that may be missing. -/
def optional {α : Type} (f : α → Value) : Option α → Value
  | none => .null
  | some x => f x

def ofByte (b : UInt8) : Value := .number b.toNat

def ofWord (w : UInt16) : Value := .number w.toNat

end Value

end Micro8080.Json
