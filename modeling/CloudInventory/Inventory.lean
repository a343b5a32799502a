import CloudInventory.Record.Patch

/-!
The inventory: the records that have been published, in the order of their publication. An asset
that is published again is not replaced, so its first record is the one that is found.
-/

namespace CloudInventory

/-- The records that have been published, oldest first. -/
structure Inventory where
  records : List Record
  deriving DecidableEq

namespace Inventory

/-- Nothing has been published. -/
def empty : Inventory := ⟨[]⟩

instance : Inhabited Inventory := ⟨empty⟩

/-- Publish a record. -/
def publish (v : Inventory) (r : Record) : Inventory := ⟨v.records ++ [r]⟩

/-- How many records have been published. -/
def size (v : Inventory) : Nat := v.records.length

/-- Nothing has been published. -/
def isEmpty (v : Inventory) : Bool := v.size = 0

/-- The first record of the asset with a name. -/
def find? (v : Inventory) (ean : Ean) : Option Record :=
  v.records.find? fun r => r.ean = some ean

/-- The records of a type. -/
def ofType (v : Inventory) (t : AssetType) : List Record :=
  v.records.filter fun r => r.type = some t

end Inventory

end CloudInventory
