import CloudInventory.Aws.Item
import CloudInventory.Proofs.Json.Coding

/-!
The items of Amazon Web Services are read back from what is written for them, whatever they are.
No part of them is a number, and none is deeper than the number of levels that is given here.
-/

namespace CloudInventory.Aws

@[simp] theorem Tag.written (i : Tag) :
    decode? i.json.term = some i ∧ ∀ depth, i.json.Fits (depth + 1) := by
  simp [decode?, json]

@[simp] theorem InstanceState.decode?_null : decode? .null = none := by simp [decode?]

@[simp] theorem InstanceState.written (i : InstanceState) :
    decode? i.json.term = some i ∧ ∀ depth, i.json.Fits (depth + 1) := by
  simp [decode?, json]

@[simp] theorem Instance.written (i : Instance) :
    decode? i.json.term = some i ∧ ∀ depth, i.json.Fits (depth + 3) := by
  simp [decode?, json]

@[simp] theorem Reservation.written (i : Reservation) :
    decode? i.json.term = some i ∧ ∀ depth, i.json.Fits (depth + 5) := by
  simp [decode?, json]

@[simp] theorem Vpc.written (i : Vpc) :
    decode? i.json.term = some i ∧ ∀ depth, i.json.Fits (depth + 3) := by
  simp [decode?, json]

@[simp] theorem Subnet.written (i : Subnet) :
    decode? i.json.term = some i ∧ ∀ depth, i.json.Fits (depth + 3) := by
  simp [decode?, json]

@[simp] theorem VpcConfig.decode?_null : decode? .null = none := by simp [decode?]

@[simp] theorem VpcConfig.written (i : VpcConfig) :
    decode? i.json.term = some i ∧ ∀ depth, i.json.Fits (depth + 1) := by
  simp [decode?, json]

@[simp] theorem EksCluster.written (i : EksCluster) :
    decode? i.json.term = some i ∧ ∀ depth, i.json.Fits (depth + 2) := by
  simp [decode?, json]

@[simp] theorem GroupName.written (i : GroupName) :
    decode? i.json.term = some i ∧ ∀ depth, i.json.Fits (depth + 1) := by
  simp [decode?, json]

@[simp] theorem NodegroupResources.decode?_null : decode? .null = none := by simp [decode?]

@[simp] theorem NodegroupResources.written (i : NodegroupResources) :
    decode? i.json.term = some i ∧ ∀ depth, i.json.Fits (depth + 3) := by
  simp [decode?, json]

@[simp] theorem Nodegroup.written (i : Nodegroup) :
    decode? i.json.term = some i ∧ ∀ depth, i.json.Fits (depth + 4) := by
  simp [decode?, json]

@[simp] theorem GroupMember.written (i : GroupMember) :
    decode? i.json.term = some i ∧ ∀ depth, i.json.Fits (depth + 1) := by
  simp [decode?, json]

@[simp] theorem AutoScalingGroup.written (i : AutoScalingGroup) :
    decode? i.json.term = some i ∧ ∀ depth, i.json.Fits (depth + 3) := by
  simp [decode?, json]

end CloudInventory.Aws
