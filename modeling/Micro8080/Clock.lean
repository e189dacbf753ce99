/-!
# The clock

The clock counts half-ticks.  An even count means that the next half-tick is a tock, in which
control is decided and the bus settles; an odd count means a tick, in which the parts latch what
the bus carries.
-/

namespace Micro8080

/-- The two kinds of half-tick. -/
inductive Phase where
  | tock | tick
  deriving DecidableEq, Repr

def Phase.name : Phase → String
  | .tock => "Tock"
  | .tick => "Tick"

/-- A count of half-ticks since power-on. -/
structure Clock where
  halfTicks : Nat := 0
  deriving DecidableEq, Repr, Inhabited

namespace Clock

/-- The kind of the next half-tick. -/
def phase (c : Clock) : Phase := if c.halfTicks % 2 = 0 then .tock else .tick

/-- How many full periods have passed. -/
def cycles (c : Clock) : Nat := c.halfTicks / 2

/-- One half-tick passes. -/
def advance (c : Clock) : Clock := { halfTicks := c.halfTicks + 1 }

theorem phase_advance (c : Clock) : c.advance.phase ≠ c.phase := by
  by_cases even : c.halfTicks % 2 = 0
  · have odd : ¬ (c.halfTicks + 1) % 2 = 0 := by omega
    simp [phase, advance, even, odd]
  · have even' : (c.halfTicks + 1) % 2 = 0 := by omega
    simp [phase, advance, even, even']

end Clock

end Micro8080
