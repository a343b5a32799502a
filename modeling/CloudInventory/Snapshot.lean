import CloudInventory.Aws.Collector
import CloudInventory.Azure.Collector
import CloudInventory.FileTree
import CloudInventory.Gcp.Collector
import CloudInventory.Json.Parser
import CloudInventory.Kube.Collector

/-!
Snapshots: files that hold the answers of the providers, from which every call can be answered
without one. Each provider has a directory, and in it each region, project or subscription has
one. A file that is missing or malformed fails the calls that read it and no others.
-/

namespace CloudInventory

/-- Files of answers. -/
abbrev Snapshot := FileTree

namespace Snapshot

/-- The path of `name` in a directory; an absolute name stands for itself. -/
def within (dir name : String) : String :=
  if name.toList.head? = some '/' ∨ dir = "" then name
  else if dir.toList.getLast? = some '/' then dir ++ name
  else dir ++ "/" ++ name

/-- The path of a scope's file. -/
def scopePath (provider scope file : String) : String := within (within provider scope) file

/-- What a file holds. -/
def read {α : Type} (files : Snapshot) (path : String) (decode? : Term → Option α) :
    Except CallFault α :=
  match files.text? path with
  | none => .error (.missing path)
  | some text =>
    match (Term.read? text).bind decode? with
    | none => .error (.malformed path)
    | some a => .ok a

/-- What a file holds that a call to a provider reads. -/
def listing {α : Type} (files : Snapshot) (provider : Provider) (operation path : String)
    (decode? : Term → Option α) : Except CollectorError α :=
  (files.read path decode?).mapError (.provider provider.text operation)

/-- The answer to a call that asks for something the provider does not know. -/
def found {α : Type} (provider : Provider) (operation what : String) :
    Option α → Except CollectorError α
  | some a => .ok a
  | none => .error (.provider provider.text operation (.notFound what))

/-! ### Amazon Web Services -/

/-- What a file of a region holds. -/
def awsListing {α : Type} (files : Snapshot) (operation region file : String)
    (decode? : Term → Option α) : Except CollectorError α :=
  files.listing .aws operation (scopePath "aws" region file) decode?

/-- The clusters of a region. -/
def eksClusters (files : Snapshot) (operation region : String) :
    Except CollectorError (List Aws.EksCluster) :=
  files.awsListing operation region "eks_clusters.json" (Term.list? Aws.EksCluster.decode?)

/-- The node groups of a region's clusters. -/
def nodegroups (files : Snapshot) (operation region : String) :
    Except CollectorError (Dict (List Aws.Nodegroup)) :=
  files.awsListing operation region "nodegroups.json"
    (Term.dict? (Term.list? Aws.Nodegroup.decode?))

/-- The answers to calls to Amazon Web Services. -/
def aws (files : Snapshot) : (c : Aws.Call) → Except CollectorError (Aws.Answer c)
  | .describeInstances region =>
    files.awsListing "DescribeInstances" region "instances.json"
      (Term.list? Aws.Reservation.decode?)
  | .describeVpcs region =>
    files.awsListing "DescribeVpcs" region "vpcs.json" (Term.list? Aws.Vpc.decode?)
  | .describeSubnets region =>
    files.awsListing "DescribeSubnets" region "subnets.json" (Term.list? Aws.Subnet.decode?)
  | .listClusters region =>
    (files.eksClusters "ListClusters" region).map fun cs => cs.filterMap Aws.EksCluster.name
  | .describeCluster region name => do
    let clusters ← files.eksClusters "DescribeCluster" region
    found .aws "DescribeCluster" name (clusters.find? fun c => c.name = some name)
  | .listNodegroups region cluster =>
    (files.nodegroups "ListNodegroups" region).map fun groups =>
      ((groups.get? cluster).getD []).filterMap Aws.Nodegroup.nodegroupName
  | .describeNodegroup region cluster nodegroup => do
    let groups ← files.nodegroups "DescribeNodegroup" region
    found .aws "DescribeNodegroup" nodegroup
      (((groups.get? cluster).getD []).find? fun g => g.nodegroupName = some nodegroup)
  | .describeAutoScalingGroups region names =>
    (files.awsListing "DescribeAutoScalingGroups" region "autoscaling_groups.json"
        (Term.list? Aws.AutoScalingGroup.decode?)).map fun groups =>
      groups.filter fun g =>
        match g.autoScalingGroupName with
        | some name => names.contains name
        | none => false

/-! ### Google Cloud -/

/-- The region that a filter asks for. -/
def filteredRegion? (filter : String) : Option String :=
  (Text.dropStart "zone eq .*" filter).bind (Text.dropEnd ".*")

/-- A zone passes a filter: its text has the region's in it. A filter of another form lets all
zones pass. -/
def passesFilter (filter : Option String) (z : Gcp.ZoneInstances) : Bool :=
  match filter.bind filteredRegion? with
  | some region => Text.occursIn region z.zone
  | none => true

/-- The project and the location that a parent names. -/
def parentParts? (parent : String) : Option (String × String) :=
  match Text.fields '/' parent with
  | projects :: project :: locations :: location :: _ =>
    if projects = "projects" ∧ locations = "locations" then some (project, location) else none
  | _ => none

/-- What a file of a project holds. -/
def gcpListing {α : Type} (files : Snapshot) (operation project file : String)
    (decode? : Term → Option α) : Except CollectorError α :=
  files.listing .gcp operation (scopePath "gcp" project file) decode?

/-- The answers to calls to Google Cloud. -/
def gcp (files : Snapshot) : (c : Gcp.Call) → Except CollectorError (Gcp.Answer c)
  | .listNetworks project =>
    files.gcpListing "networks.list" project "networks.json" (Term.list? Gcp.Network.decode?)
  | .listSubnetworks project =>
    files.gcpListing "subnetworks.aggregatedList" project "subnetworks.json"
      (Term.list? Gcp.Subnetwork.decode?)
  | .listInstances project filter =>
    (files.gcpListing "instances.aggregatedList" project "instances.json"
        (Term.list? Gcp.ZoneInstances.decode?)).map fun zones =>
      zones.filter (passesFilter filter)
  | .listClusters parent =>
    match parentParts? parent with
    | none => .error (.provider Provider.gcp.text "clusters.list" (.malformedParent parent))
    | some (project, location) =>
      (files.gcpListing "clusters.list" project "clusters.json"
          (Term.list? Gcp.GkeCluster.decode?)).map fun clusters =>
        clusters.filter fun c => location = "-" || c.location == some location

/-! ### Azure -/

/-- The answers to calls to Azure. -/
def azure (files : Snapshot) : (c : Azure.Call) → Except CollectorError (Azure.Answer c)
  | .listSubscriptions =>
    files.listing .azure "Subscriptions.List" (within "azure" "subscriptions.json") Term.texts?
  | .listVms subscription =>
    files.listing .azure "VirtualMachines.ListAll" (scopePath "azure" subscription "vms.json")
      (Term.list? Azure.VirtualMachine.decode?)

/-! ### Kubernetes -/

/-- The events of a watch: every object there is has been added. -/
def watch (files : Snapshot) : Kube.Resource → Except CollectorError (List Kube.Event)
  | .nodes =>
    ((files.read (within "k8s" "nodes.json") (Term.list? Kube.Node.decode?)).mapError
        .watcher).map fun ns => ns.map fun n => ⟨.added, .node n⟩
  | .pods =>
    ((files.read (within "k8s" "pods.json") (Term.list? Kube.Pod.decode?)).mapError
        .watcher).map fun ps => ps.map fun p => ⟨.added, .pod p⟩

end Snapshot

end CloudInventory
