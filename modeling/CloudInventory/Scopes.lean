import CloudInventory.Program

/-!
Work that goes through scopes, such as projects. A scope that fails is warned of and the others
are collected all the same; the work fails only if it had scopes and none of them succeeded, and
then with the error of the first one.
-/

namespace CloudInventory

/-- The outcomes of the scopes so far. -/
structure Tally where
  published : Nat
  succeeded : Nat
  firstError : Option CollectorError
  deriving DecidableEq, Repr

namespace Tally

/-- No scope yet. -/
def empty : Tally := ⟨0, 0, none⟩

/-- Add the outcome of a scope. -/
def add (t : Tally) (outcome : Except CollectorError Nat) : Tally :=
  match outcome with
  | .ok n => { t with published := t.published + n, succeeded := t.succeeded + 1 }
  | .error e => { t with firstError := t.firstError.or (some e) }

/-- The outcome of all scopes. -/
def finish (t : Tally) : Except CollectorError Nat :=
  match t.firstError with
  | some e => if t.succeeded = 0 then .error e else .ok t.published
  | none => .ok t.published

end Tally

namespace Work

variable {σ Call : Type} {Answer : Call → Type}

/-- Warn of the failure of a scope; a cancelled one is none. -/
def warnOfScope (outcome : Except CollectorError Nat) : Work σ Call Answer Unit :=
  match outcome with
  | .error .cancelled => pure ()
  | .error e => warn (.scopeFailed e)
  | .ok _ => pure ()

/-- Collect scopes in turn, with the outcomes of the ones before them. -/
def scopesFrom (collect : String → Attempt σ Call Answer Nat) (t : Tally) :
    List String → Work σ Call Answer Tally
  | [] => pure t
  | scope :: scopes => do
    let outcome ← (collect scope).run
    warnOfScope outcome
    scopesFrom collect (t.add outcome) scopes

/-- Collect scopes in turn. -/
def scopes (collect : String → Attempt σ Call Answer Nat) (scopes : List String) :
    Attempt σ Call Answer Nat :=
  ExceptT.mk do
    let t ← scopesFrom collect .empty scopes
    return t.finish

end Work

end CloudInventory
