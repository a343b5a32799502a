import CloudInventory.Json.Decoder
import CloudInventory.Text.Split

/-!
What Azure says of its virtual machines, read from the form of the service's answers and written
back in full.
-/

namespace CloudInventory.Azure

/-- One of the states a machine is in. -/
structure Status where
  code : Option String
  displayStatus : Option String
  deriving DecidableEq, Repr

/-- What is seen of a machine. -/
structure InstanceView where
  statuses : List Status
  deriving DecidableEq, Repr

/-- The properties of a machine. -/
structure VmProperties where
  vmId : Option String
  instanceView : Option InstanceView
  deriving DecidableEq, Repr

/-- A virtual machine; its `id` is a path. -/
structure VirtualMachine where
  id : Option String
  name : Option String
  location : Option String
  tags : Dict String
  properties : Option VmProperties
  deriving DecidableEq

/-! ### Reading -/

/-- The state that a term says. -/
def Status.decode? (t : Term) : Option Status := do
  let f ← t.fields? ["code", "displayStatus"]
  return {
    code := ← f.optional "code" Term.text?
    displayStatus := ← f.optional "displayStatus" Term.text? }

/-- The view that a term says. -/
def InstanceView.decode? (t : Term) : Option InstanceView := do
  let f ← t.fields? ["statuses"]
  return { statuses := ← f.defaulted "statuses" [] (Term.list? Status.decode?) }

/-- The properties that a term says. -/
def VmProperties.decode? (t : Term) : Option VmProperties := do
  let f ← t.fields? ["vmId", "instanceView"]
  return {
    vmId := ← f.optional "vmId" Term.text?
    instanceView := ← f.optional "instanceView" InstanceView.decode? }

/-- The machine that a term says. -/
def VirtualMachine.decode? (t : Term) : Option VirtualMachine := do
  let f ← t.fields? ["id", "name", "location", "tags", "properties"]
  return {
    id := ← f.optional "id" Term.text?
    name := ← f.optional "name" Term.text?
    location := ← f.optional "location" Term.text?
    tags := ← f.defaulted "tags" .empty Term.textDict?
    properties := ← f.optional "properties" VmProperties.decode? }

/-! ### Writing -/

/-- A state as a value. -/
def Status.json (i : Status) : Json :=
  .object [("code", .ofOption i.code), ("displayStatus", .ofOption i.displayStatus)]

/-- A view as a value. -/
def InstanceView.json (i : InstanceView) : Json :=
  .object [("statuses", .arr (i.statuses.map Status.json))]

/-- Properties as a value. -/
def VmProperties.json (i : VmProperties) : Json :=
  .object
    [("vmId", .ofOption i.vmId),
      ("instanceView", (i.instanceView.map InstanceView.json).getD .null)]

/-- A machine as a value. -/
def VirtualMachine.json (i : VirtualMachine) : Json :=
  .object
    [("id", .ofOption i.id), ("name", .ofOption i.name), ("location", .ofOption i.location),
      ("tags", .ofStrDict i.tags), ("properties", (i.properties.map VmProperties.json).getD .null)]

/-! ### Parts of items -/

/-- The resource group in a path: its fifth part. -/
def resourceGroupOf? (path : String) : Option String :=
  ((Text.fields '/' path)[4]?).bind Text.nonEmpty

namespace VirtualMachine

/-- The id of a machine. -/
def vmId? (v : VirtualMachine) : Option String :=
  (v.properties.bind VmProperties.vmId).bind Text.nonEmpty

/-- Whether the power is on, in words: the second of the states, after that of the
provisioning. -/
def powerState? (v : VirtualMachine) : Option String :=
  ((v.properties.bind VmProperties.instanceView).bind fun view => view.statuses[1]?).bind
    Status.displayStatus

/-- The resource group of a machine. -/
def resourceGroup? (v : VirtualMachine) : Option String := v.id.bind resourceGroupOf?

/-- A machine is in one of the regions, where an empty list stands for all, and in the resource
group, where an absent or empty one stands for all. -/
def wanted (regions : List String) (group : Option String) (v : VirtualMachine) : Bool :=
  (regions.isEmpty || regions.contains (v.location.getD "")) &&
    match group.bind Text.nonEmpty with
    | some group => v.resourceGroup? == some group
    | none => true

end VirtualMachine

end CloudInventory.Azure
