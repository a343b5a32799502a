import CloudInventory.Record.Patch
import CloudInventory.Warning

/-!
Programs: what a task does, as a tree of steps. A step calls a provider and goes on with the answer,
asks whether shutdown has been signalled, publishes a record, or gives a warning. A program ends
with a result, unless it breaks off: then nothing follows, and all there is is what it leaves
behind. What a program means is told by `Program.run` in a world, which says how calls are answered
and which of them are overtaken by shutdown. A call is guarded: once shutdown has been signalled
none is begun, and one in progress is abandoned.
-/

namespace CloudInventory

/-- A tree of steps that ends with a result or breaks off and leaves something behind. -/
inductive Program (σ Call : Type) (Answer : Call → Type) (α : Type) where
  | done (a : α)
  | call (c : Call) (next : Except CollectorError (Answer c) → Program σ Call Answer α)
  | cancelled (next : Bool → Program σ Call Answer α)
  | publish (r : Record) (next : Program σ Call Answer α)
  | warn (w : Warning) (next : Program σ Call Answer α)
  | crash (left : σ)

namespace Program

variable {σ Call : Type} {Answer : Call → Type} {α β : Type}

/-- Go on with the result of a program. -/
def bind (p : Program σ Call Answer α) (f : α → Program σ Call Answer β) :
    Program σ Call Answer β :=
  match p with
  | done a => f a
  | call c next => call c fun r => (next r).bind f
  | cancelled next => cancelled fun b => (next b).bind f
  | publish r next => publish r (next.bind f)
  | warn w next => warn w (next.bind f)
  | crash left => crash left

instance : Monad (Program σ Call Answer) where
  pure := done
  bind := bind

end Program

/-- When a call is overtaken by shutdown: while it is in progress, or just after it has been
answered. -/
inductive Moment where
  | during
  | after
  deriving DecidableEq, Repr

/-- How calls are answered and which of them are overtaken by shutdown. Both may depend on the
number of calls made before. -/
structure World (Call : Type) (Answer : Call → Type) where
  answer : Nat → (c : Call) → Except CollectorError (Answer c)
  signal : Nat → Call → Option Moment

/-- How a program ends: it breaks off and leaves something behind, or it has a result. -/
inductive Ending (σ α : Type) where
  | brokenOff (left : σ)
  | result (a : α)

/-- What has happened: whether shutdown has been signalled, and the calls, records and warnings in
their order. -/
structure Session (Call : Type) where
  cancelled : Bool
  calls : List Call
  records : List Record
  warnings : List Warning

namespace Session

/-- Nothing has happened. -/
def start {Call : Type} (cancelled : Bool) : Session Call := ⟨cancelled, [], [], []⟩

end Session

namespace Program

variable {σ Call : Type} {Answer : Call → Type} {α : Type}

/-- How a program ends in a world, and what has happened by then. -/
def run (w : World Call Answer) :
    Program σ Call Answer α → Session Call → Ending σ α × Session Call
  | done a, s => (.result a, s)
  | call c next, s =>
    if s.cancelled then run w (next (.error .cancelled)) s
    else
      let begun := { s with calls := s.calls ++ [c] }
      match w.signal s.calls.length c with
      | some .during => run w (next (.error .cancelled)) { begun with cancelled := true }
      | some .after => run w (next (w.answer s.calls.length c)) { begun with cancelled := true }
      | none => run w (next (w.answer s.calls.length c)) begun
  | cancelled next, s => run w (next s.cancelled) s
  | publish r next, s => run w next { s with records := s.records ++ [r] }
  | warn m next, s => run w next { s with warnings := s.warnings ++ [m] }
  | crash left, s => (.brokenOff left, s)

end Program

/-! ### Work with a state of its own -/

/-- A program that keeps a state, and leaves it behind as it is if it breaks off. -/
abbrev Work (σ Call : Type) (Answer : Call → Type) := StateT σ (Program σ Call Answer)

/-- Work that may fail. -/
abbrev Attempt (σ Call : Type) (Answer : Call → Type) :=
  ExceptT CollectorError (Work σ Call Answer)

namespace Work

variable {σ Call : Type} {Answer : Call → Type}

/-- Call the provider. -/
def ask (c : Call) : Attempt σ Call Answer (Answer c) :=
  ExceptT.mk fun s => .call c fun r => .done (r, s)

/-- Fail if shutdown has been signalled. -/
def checkpoint : Attempt σ Call Answer Unit :=
  ExceptT.mk fun s =>
    .cancelled fun b => .done (if b then .error .cancelled else .ok (), s)

/-- Publish a record. -/
def publish (r : Record) : Work σ Call Answer Unit := fun s => .publish r (.done ((), s))

/-- Give a warning. -/
def warn (m : Warning) : Work σ Call Answer Unit := fun s => .warn m (.done ((), s))

/-- Break off. What has been done to the state stays done. -/
def crash {α : Type} : Work σ Call Answer α := fun s => .crash s

/-- Do something for every item in turn and add the counts up. -/
def total {α : Type} (f : α → Work σ Call Answer Nat) : List α → Work σ Call Answer Nat
  | [] => pure 0
  | a :: as => do
    let n ← f a
    let m ← total f as
    return n + m

/-- As `total`, up to the first failure. -/
def totalAttempt {α : Type} (f : α → Attempt σ Call Answer Nat) :
    List α → Attempt σ Call Answer Nat
  | [] => pure 0
  | a :: as => do
    let n ← f a
    let m ← totalAttempt f as
    return n + m

end Work

/-- How a collector makes records: when they are stamped, and the namespace they belong to. -/
structure Emitter where
  stamp : Instant
  space : Option String

namespace Emitter

variable {σ Call : Type} {Answer : Call → Type}

/-- Publish the record of an asset, described by type, id and further patches. -/
def emit (e : Emitter) (type : AssetType) (id : String) (patches : List Patch) :
    Work σ Call Answer Unit :=
  Work.publish (Record.compose e.stamp (Patch.typed type id e.space ++ patches))

/-- Pass over an item that lacks a field. -/
def skip (type : AssetType) (field : String) : Work σ Call Answer Nat := do
  Work.warn (.skippedItem (.invalidItem type field))
  return 0

end Emitter

/-- A unit of work in a pass: it collects the assets of one type in one scope and answers how many
records it has published. -/
structure Job (σ Call : Type) (Answer : Call → Type) where
  type : AssetType
  /-- A region, or a subscription; `*` stands for all there are. -/
  scope : String
  work : Attempt σ Call Answer Nat

end CloudInventory
