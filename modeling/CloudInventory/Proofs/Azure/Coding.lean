import CloudInventory.Azure.Item
import CloudInventory.Proofs.Json.Coding

/-!
The machines of Azure are read back from what is written for them, whatever they are.
-/

namespace CloudInventory.Azure

@[simp] theorem Status.written (i : Status) :
    decode? i.json.term = some i ∧ ∀ depth, i.json.Fits (depth + 1) := by
  simp [decode?, json]

@[simp] theorem InstanceView.decode?_null : decode? .null = none := by simp [decode?]

@[simp] theorem InstanceView.written (i : InstanceView) :
    decode? i.json.term = some i ∧ ∀ depth, i.json.Fits (depth + 3) := by
  simp [decode?, json]

@[simp] theorem VmProperties.decode?_null : decode? .null = none := by simp [decode?]

@[simp] theorem VmProperties.written (i : VmProperties) :
    decode? i.json.term = some i ∧ ∀ depth, i.json.Fits (depth + 4) := by
  simp [decode?, json]

@[simp] theorem VirtualMachine.written (i : VirtualMachine) :
    decode? i.json.term = some i ∧ ∀ depth, i.json.Fits (depth + 5) := by
  simp [decode?, json]

end CloudInventory.Azure
