/-!
The lifecycle of a collector's schedule: idle, running with a count of the passes launched so far,
or cancelled, which is final. A transition says what the schedule has to do next. A log is a state
with the transitions that led to it.
-/

namespace CloudInventory

/-- Where a schedule is. -/
inductive Lifecycle where
  | idle
  | running (passes : Nat)
  | cancelled
  deriving DecidableEq, Repr

namespace Lifecycle

/-- What happens to a schedule. -/
inductive Input where
  | start
  | tick
  | cancel
  | stop
  deriving DecidableEq, Repr

/-- What a schedule has to do. -/
inductive Action where
  | runPass
  | exit
  deriving DecidableEq, Repr

/-- Why a schedule does not go on. -/
inductive Fault where
  | invalidTransition (state : Lifecycle) (input : Input)
  | preconditionFailed (text : String)
  deriving DecidableEq, Repr

/-- The text of a state. -/
def text : Lifecycle → String
  | idle => "Idle"
  | running passes => "Running(" ++ toString passes ++ ")"
  | cancelled => "Cancelled"

/-- The text of an input. -/
def Input.text : Input → String
  | start => "Start"
  | tick => "Tick"
  | cancel => "Cancel"
  | stop => "Stop"

/-- The input with the given text. -/
def Input.ofText? (s : String) : Option Input :=
  [start, tick, cancel, stop].find? fun i => i.text = s

/-- The text of an action. -/
def Action.text : Action → String
  | runPass => "RunPass"
  | exit => "Exit"

/-- The wording of a fault. -/
def Fault.message : Fault → String
  | invalidTransition state input =>
    "Invalid transition from " ++ state.text ++ " on " ++ input.text
  | preconditionFailed text => "Precondition failed: " ++ text

/-- Passes are being launched. -/
def isRunning : Lifecycle → Bool
  | running _ => true
  | _ => false

/-- Nothing can happen any more. -/
def isFinal : Lifecycle → Bool
  | cancelled => true
  | _ => false

/-- The state after an input, and what it asks for. -/
def step (state : Lifecycle) (input : Input) : Except Fault (Lifecycle × Action) :=
  match state, input with
  | idle, .start => .ok (running 1, .runPass)
  | idle, .cancel => .ok (cancelled, .exit)
  | running passes, .tick => .ok (running (passes + 1), .runPass)
  | running _, .cancel => .ok (cancelled, .exit)
  | running _, .stop => .ok (idle, .exit)
  | state, input => .error (.invalidTransition state input)

/-- An input leads somewhere. -/
def accepts (state : Lifecycle) (input : Input) : Bool := (step state input).toBool

/-- One transition. -/
structure Transition where
  source : Lifecycle
  input : Input
  target : Lifecycle
  deriving DecidableEq, Repr

/-- A state with the transitions that led to it, oldest first. -/
structure Log where
  current : Lifecycle
  history : List Transition
  deriving DecidableEq, Repr

/-- A log that begins in a state. -/
def Log.starting (state : Lifecycle) : Log := ⟨state, []⟩

/-- Take an input; one that leads nowhere changes nothing. -/
def Log.step (l : Log) (input : Input) : Except Fault Action × Log :=
  match l.current.step input with
  | .ok (target, action) => (.ok action, ⟨target, l.history ++ [⟨l.current, input, target⟩]⟩)
  | .error fault => (.error fault, l)

end Lifecycle

end CloudInventory
