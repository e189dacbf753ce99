import Micro8080.Memory

/-!
# Programs

A program is an image that fits in memory, together with labels for some of its addresses.
Labels are kept in the order of their names, character by character; a name that is given twice
keeps the address given last.  Several names may share an address, of which the first names it.
-/

namespace Micro8080

/-- Labels in the order of their names. -/
abbrev Labels := List (String × UInt16)

namespace Labels

def insert (name : String) (address : UInt16) : Labels → Labels
  | [] => [(name, address)]
  | (n, a) :: rest =>
    if name = n then (name, address) :: rest
    else if name < n then (name, address) :: (n, a) :: rest
    else (n, a) :: insert name address rest

/-- Labels from names and addresses in any order. -/
def ofList (entries : List (String × UInt16)) : Labels :=
  entries.foldl (fun labels e => insert e.1 e.2 labels) []

def addressOf? (labels : Labels) (name : String) : Option UInt16 :=
  (labels.find? fun e => e.1 == name).map Prod.snd

/-- The first name of an address. -/
def nameAt? (labels : Labels) (address : UInt16) : Option String :=
  (labels.find? fun e => e.2 == address).map Prod.fst

end Labels

structure Program where
  image : Array UInt8
  labels : Labels
  fits : image.size ≤ Memory.capacity

/-- A program, if its image fits in memory. -/
def Program.ofImage (image : Array UInt8) (labels : Labels) : Except Fault Program :=
  if fits : image.size ≤ Memory.capacity then .ok { image, labels, fits }
  else .error (.imageTooLarge image.size Memory.capacity)

end Micro8080
