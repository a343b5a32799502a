import CloudInventory.Error

/-!
The signal for shutdown. A trigger sends it, at most once and for good; a trigger that is dropped
never does. Calls are guarded by it: a call is not begun once the signal has come, and one that is
in progress when it comes is given up.
-/

namespace CloudInventory

/-- The signal at a time: whether it has come, and whether there is still a trigger. -/
structure Shutdown where
  signalled : Bool
  held : Bool
  /-- In milliseconds. -/
  now : Nat
  deriving DecidableEq, Repr

/-- What became of a guarded call, and whether it was begun. -/
structure Guarded (α : Type) where
  result : Except CollectorError α
  begun : Bool

namespace Shutdown

/-- At the start the signal has not come. -/
def start : Shutdown := ⟨false, true, 0⟩

/-- Send the signal, if there is still a trigger; answers whether there is. -/
def cancel (s : Shutdown) : Bool × Shutdown :=
  (s.held, { s with signalled := s.signalled || s.held })

/-- Drop the trigger, if there still is one; answers whether there was. -/
def drop (s : Shutdown) : Bool × Shutdown := (s.held, { s with held := false })

/-- Wait for the signal, but not longer than `within`; answers whether it came. -/
def await (s : Shutdown) (within : Nat) : Bool × Shutdown :=
  if s.signalled then (true, s) else (false, { s with now := s.now + within })

/-- When the signal will come, if it is to be sent after a time from now. -/
def sent? (s : Shutdown) (after : Option Nat) : Option Nat := if s.held then after else none

/-- Make a call that takes `duration` and yields `result`, while the signal is to be sent `after`
a time from now. -/
def guard {α : Type} (s : Shutdown) (duration : Nat) (result : Except CollectorError α)
    (after : Option Nat) : Guarded α × Shutdown :=
  let signalled := s.signalled || (s.sent? after).isSome
  let atLeast (n : Nat) : Nat := s.now + max n (after.getD 0)
  if s.signalled then (⟨.error .cancelled, false⟩, { s with signalled, now := atLeast 0 })
  else
    match s.sent? after with
    | some sent =>
      if sent < duration then (⟨.error .cancelled, true⟩, { s with signalled, now := atLeast sent })
      else (⟨result, true⟩, { s with signalled, now := atLeast duration })
    | none => (⟨result, true⟩, { s with signalled, now := atLeast duration })

end Shutdown

end CloudInventory
