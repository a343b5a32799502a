import CloudInventory.Azure.Item
import CloudInventory.Config.Basic
import CloudInventory.Scopes

/-!
Collecting from Azure. A pass has one job, for virtual machines, which goes through the configured
subscription or else through all that are listed.
-/

namespace CloudInventory.Azure

/-- A call to the service. -/
inductive Call where
  | listSubscriptions
  | listVms (subscription : String)
  deriving DecidableEq, Repr

/-- What a call answers. -/
abbrev Answer : Call → Type
  | .listSubscriptions => List String
  | .listVms _ => List VirtualMachine

/-- The name of a call and its arguments. -/
def Call.words : Call → List String
  | listSubscriptions => ["list_subscriptions"]
  | listVms subscription => ["list_vms", subscription]

/-- Work that calls the service; it keeps no state. -/
abbrev Step (α : Type) := Work Unit Call Answer α

/-- A step that may fail. -/
abbrev Try (α : Type) := Attempt Unit Call Answer α

/-- Publish a machine. -/
def publishVm (e : Emitter) (subscription : String) (v : VirtualMachine) : Step Nat :=
  match v.vmId? with
  | none => Emitter.skip .azureVm "vmId"
  | some id =>
    match v.resourceGroup? with
    | none => Emitter.skip .azureVm "id"
    | some group => do
      e.emit .azureVm id <|
        [.provider .azure, .account subscription] ++ Patch.maybeName v.name ++
          [.tags v.tags, .entry "resource_group" (.str group),
            .entry "state" (.str (v.powerState?.getD ""))] ++
          v.location.toList.map .region
      return 1

/-- Publish the wanted machines of a subscription. -/
def vmsOf (c : AzureConfig) (e : Emitter) (subscription : String) : Try Nat := do
  let vms ← Work.ask (Call.listVms subscription)
  Work.total (publishVm e subscription)
    (vms.filter (VirtualMachine.wanted c.regions c.resourceGroup))

/-- The subscriptions to go through. A configured one is known without a call, but not once
shutdown has been signalled. -/
def subscriptions (c : AzureConfig) : Try (List String) :=
  match c.subscriptionId.bind Text.nonEmpty with
  | some id => do
    Work.checkpoint
    return [id]
  | none => Work.ask Call.listSubscriptions

/-- Publish the wanted machines of all subscriptions. -/
def collectVms (c : AzureConfig) (e : Emitter) : Try Nat := do
  let ids ← subscriptions c
  Work.scopes (vmsOf c e) ids

/-- The jobs of a pass. -/
def pass (c : AzureConfig) (stamp : Instant) : List (Job Unit Call Answer) :=
  if c.base.enables .azureVm then
    [⟨.azureVm, c.subscriptionId.getD "*", collectVms c ⟨stamp, c.base.space⟩⟩]
  else []

theorem eq_of_mem_pass {c : AzureConfig} {stamp : Instant} {job : Job Unit Call Answer}
    (h : job ∈ pass c stamp) :
    job = ⟨.azureVm, c.subscriptionId.getD "*", collectVms c ⟨stamp, c.base.space⟩⟩ := by
  unfold pass at h
  split at h
  case isTrue => exact List.mem_singleton.1 h
  case isFalse => exact absurd h List.not_mem_nil

end CloudInventory.Azure
