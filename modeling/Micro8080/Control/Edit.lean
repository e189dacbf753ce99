import Micro8080.Control.Word

/-!
# Edits of a control word

An edit asserts one signal of a word or replaces one of its fields, and leaves the rest as it is.
-/

namespace Micro8080.ControlWord

/-- A change to one signal or one field of a word. -/
inductive Edit where
  | assert (s : Signal)
  | operation (op : Operation)
  | read (s : Selector)
  | write (s : Selector)
  | count (k : Count)
  deriving DecidableEq, Repr

/-- The word after an edit. -/
def edit (w : ControlWord) : Edit → ControlWord
  | .assert s => w.assert s
  | .operation op => { w with opCode := op.code }
  | .read s => { w with read := s }
  | .write s => { w with write := s }
  | .count k => { w with count := k }

end Micro8080.ControlWord
