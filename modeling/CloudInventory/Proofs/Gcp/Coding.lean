import CloudInventory.Gcp.Item
import CloudInventory.Proofs.Json.Coding

/-!
The items of Google Cloud are read back from what is written for them, whatever they are. An id
that was a number is written as a text, and read as the same one.
-/

namespace CloudInventory.Gcp

@[simp] theorem nullable?_id (s : Option String) :
    (Json.ofOption s).term.nullable? id? = some s := by
  cases s <;> rfl

@[simp] theorem idField?_given (members : List (String × Json)) :
    idField? (.given members) =
      ((Fields.given members).slot "id").elim (some none) (Term.nullable? id?) :=
  Fields.defaulted_given members "id" none _

@[simp] theorem Network.written (i : Network) :
    decode? i.json.term = some i ∧ ∀ depth, i.json.Fits (depth + 1) := by
  simp [decode?, json]

@[simp] theorem Subnetwork.written (i : Subnetwork) :
    decode? i.json.term = some i ∧ ∀ depth, i.json.Fits (depth + 1) := by
  simp [decode?, json]

@[simp] theorem NetworkInterface.written (i : NetworkInterface) :
    decode? i.json.term = some i ∧ ∀ depth, i.json.Fits (depth + 1) := by
  simp [decode?, json]

@[simp] theorem MetadataItem.written (i : MetadataItem) :
    decode? i.json.term = some i ∧ ∀ depth, i.json.Fits (depth + 1) := by
  simp [decode?, json]

@[simp] theorem InstanceMetadata.written (i : InstanceMetadata) :
    decode? i.json.term = some i ∧ ∀ depth, i.json.Fits (depth + 3) := by
  simp [decode?, json]

@[simp] theorem Instance.written (i : Instance) :
    decode? i.json.term = some i ∧ ∀ depth, i.json.Fits (depth + 4) := by
  simp [decode?, json]

@[simp] theorem ZoneInstances.written (i : ZoneInstances) :
    decode? i.json.term = some i ∧ ∀ depth, i.json.Fits (depth + 6) := by
  simp [decode?, json]

@[simp] theorem NodePool.written (i : NodePool) :
    decode? i.json.term = some i ∧ ∀ depth, i.json.Fits (depth + 1) := by
  simp [decode?, json]

@[simp] theorem NetworkConfig.decode?_null : decode? .null = none := by simp [decode?]

@[simp] theorem NetworkConfig.written (i : NetworkConfig) :
    decode? i.json.term = some i ∧ ∀ depth, i.json.Fits (depth + 1) := by
  simp [decode?, json]

@[simp] theorem GkeCluster.written (i : GkeCluster) :
    decode? i.json.term = some i ∧ ∀ depth, i.json.Fits (depth + 3) := by
  simp [decode?, json]

end CloudInventory.Gcp
