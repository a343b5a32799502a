import CloudInventory.Cache
import CloudInventory.Ean

/-!
Links to names: the resource behind a link is looked up in a cache, and its id makes a name. A
link that is empty or leads nowhere makes none, and neither does a resource with an empty id.
-/

namespace CloudInventory

/-- What is known of a resource includes its id. -/
class HasId (α : Type) where
  id : α → String

namespace Cache

variable {α : Type} [HasId α]

/-- The id of the resource behind a link. -/
def resolveId (c : Cache α) (link : String) (now : Nat) : Option String × Cache α :=
  let (value, c) := c.get link now
  (value.map HasId.id, c)

/-- The name of the resource behind a link. -/
def resolve (c : Cache α) (link : String) (kind : AssetKind) (now : Nat) :
    Option Ean × Cache α :=
  if link = "" then (none, c)
  else
    match c.resolveId link now with
    | (some id, c) => (if id = "" then none else some ⟨kind, id⟩, c)
    | (none, c) => (none, c)

/-- The names of the resources behind links, in their order. -/
def resolveAll (c : Cache α) (kind : AssetKind) (now : Nat) :
    List String → List Ean × Cache α
  | [] => ([], c)
  | link :: links =>
    let (ean, c) := c.resolve link kind now
    let (eans, c) := resolveAll c kind now links
    (ean.toList ++ eans, c)

end Cache

end CloudInventory
