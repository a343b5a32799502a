import CloudInventory.Config.Basic
import CloudInventory.Gcp.NodePool
import CloudInventory.Scopes

/-!
Collecting from Google Cloud. A pass has a job for each enabled type, and a job goes through all
projects. Jobs share three caches: networks, which give subnetworks and clusters their parents;
subnetworks, which give machines theirs; and machines, which give clusters their children. A link
that leads nowhere costs a record an edge and nothing else.
-/

namespace CloudInventory.Gcp

/-- What is known of a network. -/
structure VpcSummary where
  id : String
  name : String
  account : String
  deriving DecidableEq, Repr

instance : HasId VpcSummary := ⟨VpcSummary.id⟩

/-- What is known of a subnetwork. -/
structure SubnetSummary where
  id : String
  name : String
  account : String
  region : String
  deriving DecidableEq, Repr

instance : HasId SubnetSummary := ⟨SubnetSummary.id⟩

/-- The caches that the jobs share. -/
structure Caches where
  vpcs : Cache VpcSummary
  subnets : Cache SubnetSummary
  instances : Cache InstanceSummary

/-- Caches without entries. -/
def Caches.withCapacity (n : Nat) : Caches :=
  ⟨.withCapacity n, .withCapacity n, .withCapacity n⟩

instance : Inhabited Caches := ⟨.withCapacity Cache.defaultCapacity⟩

/-- A call to the service. -/
inductive Call where
  | listNetworks (project : String)
  | listSubnetworks (project : String)
  | listInstances (project : String) (filter : Option String)
  | listClusters (parent : String)
  deriving DecidableEq, Repr

/-- What a call answers. -/
abbrev Answer : Call → Type
  | .listNetworks _ => List Network
  | .listSubnetworks _ => List Subnetwork
  | .listInstances _ _ => List ZoneInstances
  | .listClusters _ => List GkeCluster

/-- The name of a call and its arguments. -/
def Call.words : Call → List String
  | listNetworks project => ["list_networks", project]
  | listSubnetworks project => ["list_subnetworks", project]
  | listInstances project filter => ["aggregated_list_instances", project] ++ filter.toList
  | listClusters parent => ["list_clusters", parent]

/-- What the jobs of a pass have in common: how records are made, the projects, the regions that
are wanted, how long entries of the caches live, and what the clock reads. -/
structure Setting where
  emitter : Emitter
  projects : List String
  regions : List String
  /-- In milliseconds. -/
  ttl : Nat
  now : Nat

/-- Work that calls the service and uses the caches. -/
abbrev Step (α : Type) := Work Caches Call Answer α

/-- A step that may fail. -/
abbrev Try (α : Type) := Attempt Caches Call Answer α

/-- A piece of metadata, if it is known. -/
def statePatch (state : Option String) : List Patch :=
  state.toList.map fun s => .entry "state" (.str s)

/-- Keep something in one of the caches under a link, if there is one. The job breaks off when the
put does, and leaves the caches as that has left them. -/
def keep {α : Type} (g : Setting) (get : Caches → Cache α) (set : Caches → Cache α → Caches)
    (link : Option String) (value : α) : Step Unit :=
  match link.bind Text.nonEmpty with
  | none => pure ()
  | some link => do
    let stored ← modifyGet fun c =>
      let (stored, cache) := (get c).put link value g.ttl g.now
      (stored, set c cache)
    if stored then pure () else Work.crash

/-! ### Networks -/

/-- Keep a network in its cache. -/
def cacheVpc (g : Setting) (link : Option String) (s : VpcSummary) : Step Unit :=
  keep g Caches.vpcs (fun c vpcs => { c with vpcs }) link s

/-- The network behind a link. -/
def resolveVpc (g : Setting) (link : String) : Step (Option Ean) :=
  modifyGet fun c =>
    let (ean, vpcs) := c.vpcs.resolve link .network g.now
    (ean, { c with vpcs })

/-- Publish a network. -/
def publishVpc (g : Setting) (project : String) (n : Network) : Step Nat :=
  match n.id.bind Text.nonEmpty with
  | none => Emitter.skip .gcpVpc "id"
  | some id => do
    let name := n.name.getD ""
    cacheVpc g n.selfLink ⟨id, name, project⟩
    g.emitter.emit .gcpVpc id <|
      [.provider .gcp, .account project] ++ Patch.maybeName (some name)
    return 1

/-- Publish every network of a project. -/
def vpcsOf (g : Setting) (project : String) : Try Nat := do
  let networks ← Work.ask (Call.listNetworks project)
  Work.total (publishVpc g project) networks

/-! ### Subnetworks -/

/-- Keep a subnetwork in its cache. -/
def cacheSubnet (g : Setting) (link : Option String) (s : SubnetSummary) : Step Unit :=
  keep g Caches.subnets (fun c subnets => { c with subnets }) link s

/-- The subnetworks behind links. -/
def resolveSubnets (g : Setting) (links : List String) : Step (List Ean) :=
  modifyGet fun c =>
    let (eans, subnets) := c.subnets.resolveAll .network g.now links
    (eans, { c with subnets })

/-- The network behind a link that may be absent. -/
def resolveVpc? (g : Setting) (link : Option String) : Step (List Ean) :=
  match link with
  | none => pure []
  | some link => do
    let ean ← resolveVpc g link
    return ean.toList

/-- Publish a subnetwork. -/
def publishSubnet (g : Setting) (project : String) (s : Subnetwork) : Step Nat :=
  match s.id.bind Text.nonEmpty with
  | none => Emitter.skip .gcpSubnet "id"
  | some id => do
    let region := (s.region.map resourceName).getD ""
    let name := s.name.getD ""
    cacheSubnet g s.selfLink ⟨id, name, project, region⟩
    let parents ← resolveVpc? g s.network
    g.emitter.emit .gcpSubnet id <|
      [.provider .gcp, .account project, .region region] ++ Patch.maybeName (some name) ++
        [.parents parents]
    return 1

/-- Publish every subnetwork of a project in the wanted regions. -/
def subnetsOf (g : Setting) (project : String) : Try Nat := do
  let subnets ← Work.ask (Call.listSubnetworks project)
  Work.total (publishSubnet g project)
    (subnets.filter fun s => wantsRegion g.regions (s.region.getD ""))

/-! ### Machines -/

/-- What is known of a machine in a zone; nothing without an id. -/
def summary? (project zone : String) (i : Instance) : Option InstanceSummary :=
  (i.id.bind Text.nonEmpty).map fun id => ⟨id, regionOfZone zone, project, i.metadata.items⟩

/-- What is known of the machines in a zone. -/
def summaries (project zone : String) (instances : List Instance) : List InstanceSummary :=
  instances.filterMap (summary? project zone)

/-- Keep a machine in its cache. -/
def cacheInstance (g : Setting) (link : Option String) (s : InstanceSummary) : Step Unit :=
  keep g Caches.instances (fun c instances => { c with instances }) link s

/-- Publish a machine. -/
def publishInstance (g : Setting) (project zone : String) (i : Instance) : Step Nat :=
  match summary? project zone i with
  | none => Emitter.skip .gceInstance "id"
  | some s => do
    cacheInstance g i.selfLink s
    let parents ← resolveSubnets g (i.networkInterfaces.filterMap NetworkInterface.subnetwork)
    g.emitter.emit .gceInstance s.id <|
      [.provider .gcp, .region s.region, .account project] ++ Patch.maybeName i.name ++
        [.parents parents, .labels i.labels] ++ statePatch i.status
    return 1

/-- Publish every machine of a project in the wanted regions. -/
def instancesOf (g : Setting) (project : String) : Try Nat := do
  let zones ← Work.ask (Call.listInstances project none)
  Work.total (fun z : ZoneInstances => Work.total (publishInstance g project z.zone) z.instances)
    (zones.filter fun z => wantsZone g.regions z.zone)

/-! ### Clusters -/

/-- The ids of the machines of a cluster, from the cache or else from a listing of the zones of
its region. -/
def clusterIds (g : Setting) (project region : String) (c : GkeCluster) : Try (List String) := do
  let known ← (modifyGet fun s : Caches =>
    let (ids, instances) := cachedIds s.instances region c.poolNames g.now
    (ids, { s with instances }) : Step (Option (List String)))
  match known with
  | some ids => return ids
  | none =>
    let zones ← Work.ask (Call.listInstances project (some (zoneFilter region)))
    return memberIds c.poolNames
      (zones.flatMap fun z : ZoneInstances => summaries project z.zone z.instances)

/-- The children of a cluster; none, with a warning, when they cannot be found. -/
def clusterChildren (g : Setting) (project region : String) (c : GkeCluster) :
    Step (List Ean) := do
  match ← (clusterIds g project region c).run with
  | .ok ids => return ids.map fun id => ⟨.host, id⟩
  | .error cause =>
    Work.warn (.childlessGke cause)
    return []

/-- Publish a cluster. -/
def publishCluster (g : Setting) (project : String) (c : GkeCluster) : Step Nat :=
  match c.id.bind Text.nonEmpty with
  | none => Emitter.skip .cluster "id"
  | some id => do
    let region := c.location.getD ""
    let parents ← resolveVpc? g c.networkLink?
    let children ← clusterChildren g project region c
    g.emitter.emit .cluster id <|
      [.provider .gcp, .region region, .account project] ++ Patch.maybeName c.name ++
        [.parents parents, .children children, .labels c.resourceLabels] ++ statePatch c.status
    return 1

/-- Publish every cluster under a parent. -/
def clustersUnder (g : Setting) (project parent : String) : Try Nat := do
  let clusters ← Work.ask (Call.listClusters parent)
  Work.total (publishCluster g project) clusters

/-- Publish every cluster of a project in the wanted regions. -/
def clustersOf (g : Setting) (project : String) : Try Nat :=
  Work.totalAttempt (clustersUnder g project) (clusterParents g.regions project)

/-! ### Passes -/

/-- The work for a type in a project; none for a type that the service does not have. -/
def workIn? (g : Setting) : AssetType → Option (String → Try Nat)
  | .gceInstance => some (instancesOf g)
  | .gcpVpc => some (vpcsOf g)
  | .gcpSubnet => some (subnetsOf g)
  | .cluster => some (clustersOf g)
  | _ => none

/-- The work for a type in all projects. -/
def work? (g : Setting) (type : AssetType) : Option (Try Nat) :=
  (workIn? g type).map fun collect => Work.scopes collect g.projects

/-- What the jobs of a pass have in common that begins when the clock reads `now`. -/
def Setting.ofConfig (c : GcpConfig) (ttl : Nat) (stamp : Instant) (now : Nat) : Setting :=
  ⟨⟨stamp, c.base.space⟩, c.projects, c.regions, ttl, now⟩

/-- The jobs of a pass. -/
def pass (c : GcpConfig) (ttl : Nat) (stamp : Instant) (now : Nat) :
    List (Job Caches Call Answer) :=
  (Provider.gcp.types.filter c.base.enables).filterMap fun type =>
    (work? (.ofConfig c ttl stamp now) type).map fun work => ⟨type, "*", work⟩

end CloudInventory.Gcp
