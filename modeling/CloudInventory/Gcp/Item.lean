import CloudInventory.Json.Decoder
import CloudInventory.Text.Split

/-!
What Google Cloud says of its resources: networks, subnetworks, machines by zone, and clusters.
Each item is read from the form of the service's answers and written back in full. The id of a
network, a subnetwork or a machine is a number that may be written as a text.
-/

namespace CloudInventory.Gcp

/-- A network. -/
structure Network where
  id : Option String
  name : Option String
  selfLink : Option String
  deriving DecidableEq, Repr

/-- A subnetwork; `network` is a link and `region` an address. -/
structure Subnetwork where
  id : Option String
  name : Option String
  selfLink : Option String
  network : Option String
  region : Option String
  deriving DecidableEq, Repr

/-- A network interface; `subnetwork` is a link. -/
structure NetworkInterface where
  subnetwork : Option String
  deriving DecidableEq, Repr

/-- An item of a machine's metadata. -/
structure MetadataItem where
  key : String
  value : String
  deriving DecidableEq, Repr

/-- The metadata of a machine. -/
structure InstanceMetadata where
  items : List MetadataItem
  deriving DecidableEq, Repr

/-- A virtual machine. -/
structure Instance where
  id : Option String
  name : Option String
  selfLink : Option String
  status : Option String
  labels : Dict String
  networkInterfaces : List NetworkInterface
  metadata : InstanceMetadata
  deriving DecidableEq

/-- The machines of a zone. -/
structure ZoneInstances where
  zone : String
  instances : List Instance
  deriving DecidableEq

/-- A pool of nodes of a cluster. -/
structure NodePool where
  name : Option String
  deriving DecidableEq, Repr

/-- The network that a cluster runs in; `network` is a path. -/
structure NetworkConfig where
  network : Option String
  deriving DecidableEq, Repr

/-- A Kubernetes cluster. -/
structure GkeCluster where
  id : Option String
  name : Option String
  location : Option String
  status : Option String
  networkConfig : Option NetworkConfig
  nodePools : List NodePool
  resourceLabels : Dict String
  deriving DecidableEq

/-! ### Reading -/

/-- An id: a text, or a number of 64 bits without a sign. -/
def id? : Term → Option String
  | .str s => some s
  | t => t.word?.map toString

/-- The id among the fields of an item. -/
def idField? (f : Fields) : Option (Option String) := f.defaulted "id" none (Term.nullable? id?)

/-- The network that a term says. -/
def Network.decode? (t : Term) : Option Network := do
  let f ← t.fields? ["id", "name", "selfLink"]
  return {
    id := ← idField? f
    name := ← f.optional "name" Term.text?
    selfLink := ← f.optional "selfLink" Term.text? }

/-- The subnetwork that a term says. -/
def Subnetwork.decode? (t : Term) : Option Subnetwork := do
  let f ← t.fields? ["id", "name", "selfLink", "network", "region"]
  return {
    id := ← idField? f
    name := ← f.optional "name" Term.text?
    selfLink := ← f.optional "selfLink" Term.text?
    network := ← f.optional "network" Term.text?
    region := ← f.optional "region" Term.text? }

/-- The network interface that a term says. -/
def NetworkInterface.decode? (t : Term) : Option NetworkInterface := do
  let f ← t.fields? ["subnetwork"]
  return { subnetwork := ← f.optional "subnetwork" Term.text? }

/-- The item of metadata that a term says. -/
def MetadataItem.decode? (t : Term) : Option MetadataItem := do
  let f ← t.fields? ["key", "value"]
  return { key := ← f.required "key" Term.text?, value := ← f.defaulted "value" "" Term.text? }

/-- The metadata that a term says. -/
def InstanceMetadata.decode? (t : Term) : Option InstanceMetadata := do
  let f ← t.fields? ["items"]
  return { items := ← f.defaulted "items" [] (Term.list? MetadataItem.decode?) }

/-- The machine that a term says. -/
def Instance.decode? (t : Term) : Option Instance := do
  let f ← t.fields?
    ["id", "name", "selfLink", "status", "labels", "networkInterfaces", "metadata"]
  return {
    id := ← idField? f
    name := ← f.optional "name" Term.text?
    selfLink := ← f.optional "selfLink" Term.text?
    status := ← f.optional "status" Term.text?
    labels := ← f.defaulted "labels" .empty Term.textDict?
    networkInterfaces :=
      ← f.defaulted "networkInterfaces" [] (Term.list? NetworkInterface.decode?)
    metadata := ← f.defaulted "metadata" ⟨[]⟩ InstanceMetadata.decode? }

/-- The zone that a term says. -/
def ZoneInstances.decode? (t : Term) : Option ZoneInstances := do
  let f ← t.fields? ["zone", "instances"]
  return {
    zone := ← f.required "zone" Term.text?
    instances := ← f.defaulted "instances" [] (Term.list? Instance.decode?) }

/-- The pool that a term says. -/
def NodePool.decode? (t : Term) : Option NodePool := do
  let f ← t.fields? ["name"]
  return { name := ← f.optional "name" Term.text? }

/-- The network of a cluster that a term says. -/
def NetworkConfig.decode? (t : Term) : Option NetworkConfig := do
  let f ← t.fields? ["network"]
  return { network := ← f.optional "network" Term.text? }

/-- The cluster that a term says. -/
def GkeCluster.decode? (t : Term) : Option GkeCluster := do
  let f ← t.fields?
    ["id", "name", "location", "status", "networkConfig", "nodePools", "resourceLabels"]
  return {
    id := ← f.optional "id" Term.text?
    name := ← f.optional "name" Term.text?
    location := ← f.optional "location" Term.text?
    status := ← f.optional "status" Term.text?
    networkConfig := ← f.optional "networkConfig" NetworkConfig.decode?
    nodePools := ← f.defaulted "nodePools" [] (Term.list? NodePool.decode?)
    resourceLabels := ← f.defaulted "resourceLabels" .empty Term.textDict? }

/-! ### Writing -/

/-- A network as a value. -/
def Network.json (i : Network) : Json :=
  .object
    [("id", .ofOption i.id), ("name", .ofOption i.name), ("selfLink", .ofOption i.selfLink)]

/-- A subnetwork as a value. -/
def Subnetwork.json (i : Subnetwork) : Json :=
  .object
    [("id", .ofOption i.id), ("name", .ofOption i.name), ("selfLink", .ofOption i.selfLink),
      ("network", .ofOption i.network), ("region", .ofOption i.region)]

/-- A network interface as a value. -/
def NetworkInterface.json (i : NetworkInterface) : Json :=
  .object [("subnetwork", .ofOption i.subnetwork)]

/-- An item of metadata as a value. -/
def MetadataItem.json (i : MetadataItem) : Json :=
  .object [("key", .str i.key), ("value", .str i.value)]

/-- Metadata as a value. -/
def InstanceMetadata.json (i : InstanceMetadata) : Json :=
  .object [("items", .arr (i.items.map MetadataItem.json))]

/-- A machine as a value. -/
def Instance.json (i : Instance) : Json :=
  .object
    [("id", .ofOption i.id), ("name", .ofOption i.name), ("selfLink", .ofOption i.selfLink),
      ("status", .ofOption i.status), ("labels", .ofStrDict i.labels),
      ("networkInterfaces", .arr (i.networkInterfaces.map NetworkInterface.json)),
      ("metadata", i.metadata.json)]

/-- A zone as a value. -/
def ZoneInstances.json (i : ZoneInstances) : Json :=
  .object [("zone", .str i.zone), ("instances", .arr (i.instances.map Instance.json))]

/-- A pool as a value. -/
def NodePool.json (i : NodePool) : Json := .object [("name", .ofOption i.name)]

/-- The network of a cluster as a value. -/
def NetworkConfig.json (i : NetworkConfig) : Json := .object [("network", .ofOption i.network)]

/-- A cluster as a value. -/
def GkeCluster.json (i : GkeCluster) : Json :=
  .object
    [("id", .ofOption i.id), ("name", .ofOption i.name), ("location", .ofOption i.location),
      ("status", .ofOption i.status),
      ("networkConfig", (i.networkConfig.map NetworkConfig.json).getD .null),
      ("nodePools", .arr (i.nodePools.map NodePool.json)),
      ("resourceLabels", .ofStrDict i.resourceLabels)]

/-! ### Parts of items -/

/-- The link to the network with the given path. -/
def networkLink (path : String) : String := "https://www.googleapis.com/compute/v1/" ++ path

/-- The link to the network that a cluster runs in. -/
def GkeCluster.networkLink? (c : GkeCluster) : Option String :=
  ((c.networkConfig.bind NetworkConfig.network).bind Text.nonEmpty).map networkLink

/-- The names of a cluster's pools. -/
def GkeCluster.poolNames (c : GkeCluster) : List String := c.nodePools.filterMap NodePool.name

/-- The last part of an address. -/
def resourceName (address : String) : String :=
  match Text.cutLast '/' address with
  | some (_, name) => name
  | none => address

/-- The region of a zone: what stands before the last hyphen of its name. -/
def regionOfZone (zone : String) : String :=
  match Text.cutLast '-' (resourceName zone) with
  | some (region, _) => region
  | none => ""

/-- A zone is in one of the regions; an empty list stands for all. -/
def wantsZone (regions : List String) (zone : String) : Bool :=
  regions.isEmpty || regions.contains (regionOfZone zone)

/-- An address names one of the regions; an empty list stands for all. -/
def wantsRegion (regions : List String) (address : String) : Bool :=
  regions.isEmpty || regions.contains (resourceName address)

/-- The parents under which the clusters of a project are listed. -/
def clusterParents (regions : List String) (project : String) : List String :=
  let locations := if regions = [] then ["-"] else regions
  locations.map fun l => "projects/" ++ project ++ "/locations/" ++ l

/-- The filter for zones of a region. -/
def zoneFilter (region : String) : String := "zone eq .*" ++ region ++ ".*"

end CloudInventory.Gcp
