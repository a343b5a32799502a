import CloudInventory.Error

/-!
How work ends that counts what it publishes.
-/

namespace CloudInventory

/-- How work ends: with a count, with an error, or by breaking off without either. -/
inductive Outcome where
  | ok (count : Nat)
  | error (cause : CollectorError)
  | panic
  deriving DecidableEq

/-- The outcome of work that has not broken off. -/
def Outcome.ofResult : Except CollectorError Nat → Outcome
  | .ok count => ok count
  | .error cause => error cause

end CloudInventory
