import CloudInventory.Aws.Item
import CloudInventory.Config.Basic
import CloudInventory.Program

/-!
Collecting from Amazon Web Services. A pass has a job for each region and each enabled type, and a
job calls the service for its region only. The children of a cluster are the machines of every
autoscaling group behind its node groups; where a call for them fails, the cluster is published
without children.
-/

namespace CloudInventory.Aws

/-- A call to the service. -/
inductive Call where
  | describeInstances (region : String)
  | describeVpcs (region : String)
  | describeSubnets (region : String)
  | listClusters (region : String)
  | describeCluster (region name : String)
  | listNodegroups (region cluster : String)
  | describeNodegroup (region cluster nodegroup : String)
  | describeAutoScalingGroups (region : String) (names : List String)
  deriving DecidableEq, Repr

/-- What a call answers. -/
abbrev Answer : Call → Type
  | .describeInstances _ => List Reservation
  | .describeVpcs _ => List Vpc
  | .describeSubnets _ => List Subnet
  | .listClusters _ => List String
  | .describeCluster _ _ => EksCluster
  | .listNodegroups _ _ => List String
  | .describeNodegroup _ _ _ => Nodegroup
  | .describeAutoScalingGroups _ _ => List AutoScalingGroup

/-- The name of a call and its arguments. -/
def Call.words : Call → List String
  | describeInstances region => ["describe_instances", region]
  | describeVpcs region => ["describe_vpcs", region]
  | describeSubnets region => ["describe_subnets", region]
  | listClusters region => ["list_eks_clusters", region]
  | describeCluster region name => ["describe_eks_cluster", region, name]
  | listNodegroups region cluster => ["list_nodegroups", region, cluster]
  | describeNodegroup region cluster nodegroup =>
    ["describe_nodegroup", region, cluster, nodegroup]
  | describeAutoScalingGroups region names =>
    ["describe_autoscaling_groups", region, Text.joined "," names]

/-- The region that a call is made for. -/
def Call.region : Call → String
  | describeInstances region => region
  | describeVpcs region => region
  | describeSubnets region => region
  | listClusters region => region
  | describeCluster region _ => region
  | listNodegroups region _ => region
  | describeNodegroup region _ _ => region
  | describeAutoScalingGroups region _ => region

/-- Work that calls the service; it keeps no state. -/
abbrev Step (α : Type) := Work Unit Call Answer α

/-- A step that may fail. -/
abbrev Try (α : Type) := Attempt Unit Call Answer α

/-- The names of networks with the given ids. -/
def networks (id : Option String) : List Ean :=
  (id.bind Text.nonEmpty).toList.map fun id => ⟨.network, id⟩

/-- An account, if it is known. -/
def accountPatch (account : Option String) : List Patch := account.toList.map .account

/-- A piece of metadata, if it is known. -/
def textPatch (key : String) (value : Option String) : List Patch :=
  value.toList.map fun s => .entry key (.str s)

/-! ### Machines -/

/-- Publish a machine. -/
def publishInstance (e : Emitter) (region : String) (owner : Option String) (i : Instance) :
    Step Nat :=
  match i.instanceId.bind Text.nonEmpty with
  | none => Emitter.skip .ec2Instance "InstanceId"
  | some id => do
    e.emit .ec2Instance id <|
      [.provider .aws, .region region, .parents (networks i.subnetId), .tags (tagDict i.tags)] ++
        accountPatch owner ++ textPatch "state" (i.state.bind InstanceState.name)
    return 1

/-- Publish every machine in a region. -/
def collectInstances (e : Emitter) (region : String) : Try Nat := do
  let reservations ← Work.ask (Call.describeInstances region)
  Work.total
    (fun r : Reservation => Work.total (publishInstance e region r.ownerId) r.instances)
    reservations

/-! ### Networks and subnets -/

/-- Publish a network. -/
def publishVpc (e : Emitter) (region : String) (v : Vpc) : Step Nat :=
  match v.vpcId.bind Text.nonEmpty with
  | none => Emitter.skip .awsVpc "VpcId"
  | some id => do
    e.emit .awsVpc id <|
      [.provider .aws, .region region, .tags (tagDict v.tags),
        .entry "isDefault" (.bool v.isDefault)] ++ accountPatch v.ownerId
    return 1

/-- Publish every network in a region. -/
def collectVpcs (e : Emitter) (region : String) : Try Nat := do
  let vpcs ← Work.ask (Call.describeVpcs region)
  Work.total (publishVpc e region) vpcs

/-- Publish a subnet. -/
def publishSubnet (e : Emitter) (region : String) (s : Subnet) : Step Nat :=
  match s.subnetId.bind Text.nonEmpty with
  | none => Emitter.skip .awsSubnet "SubnetId"
  | some id => do
    e.emit .awsSubnet id <|
      [.provider .aws, .region region, .parents (networks s.vpcId), .tags (tagDict s.tags)] ++
        accountPatch s.ownerId ++ textPatch "state" s.state
    return 1

/-- Publish every subnet in a region. -/
def collectSubnets (e : Emitter) (region : String) : Try Nat := do
  let subnets ← Work.ask (Call.describeSubnets region)
  Work.total (publishSubnet e region) subnets

/-! ### Clusters -/

/-- The names of the autoscaling groups behind a node group. -/
def Nodegroup.groupNames (n : Nodegroup) : List String :=
  (n.resources.toList.flatMap NodegroupResources.autoScalingGroups).filterMap GroupName.name

/-- The names of the autoscaling groups behind node groups, in their order. -/
def groupNames (region cluster : String) : List String → Try (List String)
  | [] => pure []
  | nodegroup :: nodegroups => do
    let described ← Work.ask (Call.describeNodegroup region cluster nodegroup)
    let names ← groupNames region cluster nodegroups
    return Nodegroup.groupNames described ++ names

/-- The machines of autoscaling groups. -/
def members (groups : List AutoScalingGroup) : List Ean :=
  ((groups.flatMap AutoScalingGroup.instances).filterMap GroupMember.instanceId).map fun id =>
    ⟨.host, id⟩

/-- The machines behind a cluster. -/
def clusterChildren (region cluster : String) : Try (List Ean) := do
  let nodegroups ← Work.ask (Call.listNodegroups region cluster)
  let names ← groupNames region cluster nodegroups
  if names = [] then return []
  else
    let groups ← Work.ask (Call.describeAutoScalingGroups region names)
    return members groups

/-- A cluster with its children; none when it cannot be described. -/
def describeCluster (region name : String) : Step (Option (EksCluster × List Ean)) := do
  match ← (Work.ask (Call.describeCluster region name) : Try EksCluster).run with
  | .error cause =>
    Work.warn (.skippedCluster cause)
    return none
  | .ok cluster =>
    match ← (clusterChildren region name).run with
    | .error cause =>
      Work.warn (.childlessEks cause)
      return some (cluster, [])
    | .ok children => return some (cluster, children)

/-- The clusters that can be described, in the order of their names. -/
def describeClusters (region : String) : List String → Step (List (EksCluster × List Ean))
  | [] => pure []
  | name :: names => do
    let described ← describeCluster region name
    let rest ← describeClusters region names
    return described.toList ++ rest

/-- Publish a cluster. -/
def publishCluster (e : Emitter) (region : String) (c : EksCluster × List Ean) : Step Nat :=
  match c.1.arn.bind Text.nonEmpty with
  | none => Emitter.skip .cluster "arn"
  | some arn => do
    e.emit .cluster arn <|
      [.provider .aws, .region region] ++ Patch.maybeName c.1.name ++
        [.parents (networks (c.1.resourcesVpcConfig.bind VpcConfig.vpcId)), .children c.2,
          .tags c.1.tags] ++
        accountPatch (arnAccount? arn) ++ textPatch "status" c.1.status
    return 1

/-- Publish every cluster in a region, after all of them have been described. -/
def collectClusters (e : Emitter) (region : String) : Try Nat := do
  let names ← Work.ask (Call.listClusters region)
  let described ← describeClusters region names
  Work.total (publishCluster e region) described

/-! ### Passes -/

/-- The work for a type in a region; none for a type that the service does not have. -/
def work? (e : Emitter) (region : String) : AssetType → Option (Try Nat)
  | .ec2Instance => some (collectInstances e region)
  | .awsVpc => some (collectVpcs e region)
  | .awsSubnet => some (collectSubnets e region)
  | .cluster => some (collectClusters e region)
  | _ => none

/-- The jobs of a pass. -/
def pass (c : AwsConfig) (stamp : Instant) : List (Job Unit Call Answer) :=
  let e : Emitter := ⟨stamp, c.base.space⟩
  c.regions.flatMap fun region =>
    (Provider.aws.types.filter c.base.enables).filterMap fun type =>
      (work? e region type).map fun work => ⟨type, region, work⟩

/-- A job of a pass does the work for a type in a region. -/
theorem exists_of_mem_pass {c : AwsConfig} {stamp : Instant} {job : Job Unit Call Answer}
    (h : job ∈ pass c stamp) :
    ∃ region type work, work? ⟨stamp, c.base.space⟩ region type = some work ∧
      job = ⟨type, region, work⟩ := by
  obtain ⟨region, -, hjob⟩ := List.mem_flatMap.1 h
  obtain ⟨type, -, hjob⟩ := List.mem_filterMap.1 hjob
  obtain ⟨work, hwork, rfl⟩ := Option.map_eq_some_iff.1 hjob
  exact ⟨region, type, work, hwork, rfl⟩

end CloudInventory.Aws
