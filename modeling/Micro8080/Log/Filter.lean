import Micro8080.Log
import Micro8080.Text.Blank

/-!
# Log filters

A filter says how severe a record has to be, by the target it is filed under.  Its rules name the
beginnings of targets, and the longest name that fits decides.  Filters can be written down: rules
between commas, each a level for all targets, a name, or a name and a level with `=` between them.
-/

namespace Micro8080.Log

/-- A threshold for the targets that begin with a name, or for all targets. -/
structure Rule where
  name : Option String := none
  threshold : Threshold

namespace Rule

def covers (r : Rule) (target : String) : Bool :=
  match r.name with
  | none => true
  | some name => name.toList.isPrefixOf target.toList

/-- The length of the name, by which rules outdo each other. -/
def length (r : Rule) : Nat :=
  match r.name with
  | none => 0
  | some name => name.utf8ByteSize

/-- The threshold that keeps every record. -/
def everything : Threshold := some .trace

/-- The rule that a text stands for, or the part of the text that stands for nothing.  A text that
is no level is a name, and a name without a level keeps every record. -/
def ofText (text : String) : Except String Rule :=
  match text.splitOn "=" with
  | [word] =>
    match Threshold.ofName? word with
    | some threshold => .ok { threshold }
    | none => .ok { name := some word, threshold := everything }
  | [name, level] =>
    let level := Blank.trim level
    if level.isEmpty then .ok { name := some name, threshold := everything }
    else
      match Threshold.ofName? level with
      | some threshold => .ok { name := some name, threshold }
      | none => .error level
  | _ => .error text

end Rule

/-- Rules, of which no two have one name. -/
abbrev Filter := List Rule

namespace Filter

/-- Adds a rule, in the place of the one with its name. -/
def set (f : Filter) (r : Rule) : Filter :=
  if f.any (·.name == r.name) then f.map fun s => if s.name == r.name then r else s
  else f ++ [r]

/-- The rule that decides about a target: the longest, and the last of the longest. -/
def decisive? : Filter → String → Option Rule
  | [], _ => none
  | r :: rest, target =>
    match decisive? rest target with
    | none => if r.covers target then some r else none
    | some s => if r.covers target && s.length < r.length then some r else some s

/-- The threshold for a target.  Nothing is kept of targets that no rule is about. -/
def threshold (f : Filter) (target : String) : Threshold :=
  (f.decisive? target).bind (·.threshold)

/-- Adds the rules that a text lists, and gives what stands for no rule. -/
def extend (f : Filter) (text : String) : Filter × List String :=
  let entries := ((text.splitOn ",").map Blank.trim).filter (!·.isEmpty)
  entries.foldl (fun (f, refused) entry =>
    match Rule.ofText entry with
    | .ok r => (f.set r, refused)
    | .error culprit => (f, refused ++ [culprit])) (f, [])

end Filter

end Micro8080.Log
