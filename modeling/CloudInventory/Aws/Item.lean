import CloudInventory.Json.Decoder
import CloudInventory.Text.Split

/-!
What Amazon Web Services say of their resources: reservations of machines, networks, subnets, and
clusters with the groups of machines behind them. Each item is read from the form of the service's
answers and written back in full.
-/

namespace CloudInventory.Aws

/-- A tag. -/
structure Tag where
  key : Option String
  value : Option String
  deriving DecidableEq, Repr

/-- The state of an instance. -/
structure InstanceState where
  name : Option String
  deriving DecidableEq, Repr

/-- A virtual machine. -/
structure Instance where
  instanceId : Option String
  subnetId : Option String
  state : Option InstanceState
  tags : List Tag
  deriving DecidableEq, Repr

/-- The machines that were launched together, and who owns them. -/
structure Reservation where
  ownerId : Option String
  instances : List Instance
  deriving DecidableEq, Repr

/-- A virtual network. -/
structure Vpc where
  vpcId : Option String
  ownerId : Option String
  isDefault : Bool
  tags : List Tag
  deriving DecidableEq, Repr

/-- A subnet of a virtual network. -/
structure Subnet where
  subnetId : Option String
  vpcId : Option String
  ownerId : Option String
  state : Option String
  tags : List Tag
  deriving DecidableEq, Repr

/-- The network that a cluster runs in. -/
structure VpcConfig where
  vpcId : Option String
  deriving DecidableEq, Repr

/-- A Kubernetes cluster. -/
structure EksCluster where
  name : Option String
  arn : Option String
  status : Option String
  resourcesVpcConfig : Option VpcConfig
  tags : Dict String
  deriving DecidableEq

/-- The name of an autoscaling group behind a node group. -/
structure GroupName where
  name : Option String
  deriving DecidableEq, Repr

/-- What is behind a node group. -/
structure NodegroupResources where
  autoScalingGroups : List GroupName
  deriving DecidableEq, Repr

/-- A group of nodes of a cluster. -/
structure Nodegroup where
  nodegroupName : Option String
  resources : Option NodegroupResources
  deriving DecidableEq, Repr

/-- A machine of an autoscaling group. -/
structure GroupMember where
  instanceId : Option String
  deriving DecidableEq, Repr

/-- An autoscaling group. -/
structure AutoScalingGroup where
  autoScalingGroupName : Option String
  instances : List GroupMember
  deriving DecidableEq, Repr

/-! ### Reading -/

/-- The tag that a term says. -/
def Tag.decode? (t : Term) : Option Tag := do
  let f ← t.fields? ["Key", "Value"]
  return { key := ← f.optional "Key" Term.text?, value := ← f.optional "Value" Term.text? }

/-- The state that a term says. -/
def InstanceState.decode? (t : Term) : Option InstanceState := do
  let f ← t.fields? ["Name"]
  return { name := ← f.optional "Name" Term.text? }

/-- The machine that a term says. -/
def Instance.decode? (t : Term) : Option Instance := do
  let f ← t.fields? ["InstanceId", "SubnetId", "State", "Tags"]
  return {
    instanceId := ← f.optional "InstanceId" Term.text?
    subnetId := ← f.optional "SubnetId" Term.text?
    state := ← f.optional "State" InstanceState.decode?
    tags := ← f.defaulted "Tags" [] (Term.list? Tag.decode?) }

/-- The reservation that a term says. -/
def Reservation.decode? (t : Term) : Option Reservation := do
  let f ← t.fields? ["OwnerId", "Instances"]
  return {
    ownerId := ← f.optional "OwnerId" Term.text?
    instances := ← f.defaulted "Instances" [] (Term.list? Instance.decode?) }

/-- The network that a term says. -/
def Vpc.decode? (t : Term) : Option Vpc := do
  let f ← t.fields? ["VpcId", "OwnerId", "IsDefault", "Tags"]
  return {
    vpcId := ← f.optional "VpcId" Term.text?
    ownerId := ← f.optional "OwnerId" Term.text?
    isDefault := ← f.defaulted "IsDefault" false Term.flag?
    tags := ← f.defaulted "Tags" [] (Term.list? Tag.decode?) }

/-- The subnet that a term says. -/
def Subnet.decode? (t : Term) : Option Subnet := do
  let f ← t.fields? ["SubnetId", "VpcId", "OwnerId", "State", "Tags"]
  return {
    subnetId := ← f.optional "SubnetId" Term.text?
    vpcId := ← f.optional "VpcId" Term.text?
    ownerId := ← f.optional "OwnerId" Term.text?
    state := ← f.optional "State" Term.text?
    tags := ← f.defaulted "Tags" [] (Term.list? Tag.decode?) }

/-- The network of a cluster that a term says. -/
def VpcConfig.decode? (t : Term) : Option VpcConfig := do
  let f ← t.fields? ["vpcId"]
  return { vpcId := ← f.optional "vpcId" Term.text? }

/-- The cluster that a term says. -/
def EksCluster.decode? (t : Term) : Option EksCluster := do
  let f ← t.fields? ["name", "arn", "status", "resourcesVpcConfig", "tags"]
  return {
    name := ← f.optional "name" Term.text?
    arn := ← f.optional "arn" Term.text?
    status := ← f.optional "status" Term.text?
    resourcesVpcConfig := ← f.optional "resourcesVpcConfig" VpcConfig.decode?
    tags := ← f.defaulted "tags" .empty Term.textDict? }

/-- The name of a group that a term says. -/
def GroupName.decode? (t : Term) : Option GroupName := do
  let f ← t.fields? ["name"]
  return { name := ← f.optional "name" Term.text? }

/-- The resources that a term says. -/
def NodegroupResources.decode? (t : Term) : Option NodegroupResources := do
  let f ← t.fields? ["autoScalingGroups"]
  return {
    autoScalingGroups := ← f.defaulted "autoScalingGroups" [] (Term.list? GroupName.decode?) }

/-- The node group that a term says. -/
def Nodegroup.decode? (t : Term) : Option Nodegroup := do
  let f ← t.fields? ["nodegroupName", "resources"]
  return {
    nodegroupName := ← f.optional "nodegroupName" Term.text?
    resources := ← f.optional "resources" NodegroupResources.decode? }

/-- The member that a term says. -/
def GroupMember.decode? (t : Term) : Option GroupMember := do
  let f ← t.fields? ["InstanceId"]
  return { instanceId := ← f.optional "InstanceId" Term.text? }

/-- The autoscaling group that a term says. -/
def AutoScalingGroup.decode? (t : Term) : Option AutoScalingGroup := do
  let f ← t.fields? ["AutoScalingGroupName", "Instances"]
  return {
    autoScalingGroupName := ← f.optional "AutoScalingGroupName" Term.text?
    instances := ← f.defaulted "Instances" [] (Term.list? GroupMember.decode?) }

/-! ### Writing -/

/-- A tag as a value. -/
def Tag.json (i : Tag) : Json :=
  .object [("Key", .ofOption i.key), ("Value", .ofOption i.value)]

/-- A state as a value. -/
def InstanceState.json (i : InstanceState) : Json := .object [("Name", .ofOption i.name)]

/-- A machine as a value. -/
def Instance.json (i : Instance) : Json :=
  .object
    [("InstanceId", .ofOption i.instanceId), ("SubnetId", .ofOption i.subnetId),
      ("State", (i.state.map InstanceState.json).getD .null), ("Tags", .arr (i.tags.map Tag.json))]

/-- A reservation as a value. -/
def Reservation.json (i : Reservation) : Json :=
  .object
    [("OwnerId", .ofOption i.ownerId), ("Instances", .arr (i.instances.map Instance.json))]

/-- A network as a value. -/
def Vpc.json (i : Vpc) : Json :=
  .object
    [("VpcId", .ofOption i.vpcId), ("OwnerId", .ofOption i.ownerId),
      ("IsDefault", .bool i.isDefault), ("Tags", .arr (i.tags.map Tag.json))]

/-- A subnet as a value. -/
def Subnet.json (i : Subnet) : Json :=
  .object
    [("SubnetId", .ofOption i.subnetId), ("VpcId", .ofOption i.vpcId),
      ("OwnerId", .ofOption i.ownerId), ("State", .ofOption i.state),
      ("Tags", .arr (i.tags.map Tag.json))]

/-- The network of a cluster as a value. -/
def VpcConfig.json (i : VpcConfig) : Json := .object [("vpcId", .ofOption i.vpcId)]

/-- A cluster as a value. -/
def EksCluster.json (i : EksCluster) : Json :=
  .object
    [("name", .ofOption i.name), ("arn", .ofOption i.arn), ("status", .ofOption i.status),
      ("resourcesVpcConfig", (i.resourcesVpcConfig.map VpcConfig.json).getD .null),
      ("tags", .ofStrDict i.tags)]

/-- The name of a group as a value. -/
def GroupName.json (i : GroupName) : Json := .object [("name", .ofOption i.name)]

/-- The resources of a node group as a value. -/
def NodegroupResources.json (i : NodegroupResources) : Json :=
  .object [("autoScalingGroups", .arr (i.autoScalingGroups.map GroupName.json))]

/-- A node group as a value. -/
def Nodegroup.json (i : Nodegroup) : Json :=
  .object
    [("nodegroupName", .ofOption i.nodegroupName),
      ("resources", (i.resources.map NodegroupResources.json).getD .null)]

/-- A member as a value. -/
def GroupMember.json (i : GroupMember) : Json :=
  .object [("InstanceId", .ofOption i.instanceId)]

/-- An autoscaling group as a value. -/
def AutoScalingGroup.json (i : AutoScalingGroup) : Json :=
  .object
    [("AutoScalingGroupName", .ofOption i.autoScalingGroupName),
      ("Instances", .arr (i.instances.map GroupMember.json))]

/-! ### Parts of items -/

/-- Tags as a dictionary: one without a key is dropped, and one without a value has an empty
one. -/
def tagDict (tags : List Tag) : Dict String :=
  .ofList (tags.filterMap fun t => t.key.map fun k => (k, t.value.getD ""))

/-- The account in the name of a resource, which has at least six parts: the first is `arn` and
the fifth is the account. -/
def arnAccount? (arn : String) : Option String :=
  match Text.fields ':' arn with
  | first :: _ :: _ :: _ :: account :: _ :: _ =>
    if first = "arn" then Text.nonEmpty account else none
  | _ => none

end CloudInventory.Aws
