/-!
The clock by which work is timed. It counts seconds with 63 bits from the start of the machine, and
a time beyond that cannot be told. Times are in milliseconds.
-/

namespace CloudInventory

/-- A clock, as a program finds it when it begins. -/
structure Clock where
  /-- How long the machine has been running for. -/
  uptime : Nat
  deriving DecidableEq, Repr

namespace Clock

/-- The clock of a machine that has been running for an hour. -/
def hourOld : Clock := ⟨3600 * 1000⟩

/-- What the clock reads at a time since the program began. -/
def reading (c : Clock) (time : Nat) : Nat := c.uptime + time

/-- The first reading there cannot be. -/
def range : Nat := Nat.pow 2 63 * 1000

/-- There is a reading for the time that comes `wait` after the reading `now`. -/
def tells (now wait : Nat) : Bool := now + wait < range

end Clock

end CloudInventory
