import CloudInventory.Config.Basic
import CloudInventory.Kube.Store
import CloudInventory.Program

/-!
Collecting from Kubernetes. A pass has a job for each enabled type, and a job publishes what is
known at that time. A pod whose node is not known is published without its parent. The cluster
that the nodes belong to is looked up in the metadata of the machine that the collector runs on.
-/

namespace CloudInventory.Kube

/-- The one call that jobs make: for the metadata of the machine that the collector runs on. -/
inductive Call where
  | metadata
  deriving DecidableEq, Repr

/-- What the call answers. -/
abbrev Answer : Call → Type
  | .metadata => Json

/-- Work that looks up metadata; it keeps no state. -/
abbrev Step (α : Type) := Work Unit Call Answer α

/-- A step that may fail. -/
abbrev Try (α : Type) := Attempt Unit Call Answer α

/-- The name of the cluster that metadata speak of; a warning if they do not. -/
def clusterOf (metadata : Json) : Step (Option Ean) :=
  match clusterUid? metadata with
  | some uid => pure (some ⟨.cluster, uid⟩)
  | none => do
    Work.warn .noClusterUid
    return none

/-- The name of the cluster, when metadata can be looked up and the first of its nodes runs on
Google Cloud. -/
def clusterParent (fetches : Bool) (nodes : List Node) : Step (Option Ean) :=
  match nodes with
  | [] => pure none
  | first :: _ =>
    if fetches ∧ first.cloud = .gce then do
      match ← (Work.ask Call.metadata : Try Json).run with
      | .ok metadata => clusterOf metadata
      | .error cause =>
        Work.warn (.noMetadata cause)
        return none
    else pure none

/-- Publish a node. -/
def publishNode (e : Emitter) (cluster : Option Ean) (n : Node) : Step Nat :=
  match Text.nonEmpty n.metadata.uid with
  | none => Emitter.skip .node "uid"
  | some uid => do
    e.emit .node uid <|
      Patch.maybeName (some n.metadata.name) ++ [.entry "state" (.str n.state)] ++
        Patch.nodeData n.metadata.name n.metadata.creationTimestamp ++
        n.instanceId?.toList.map Patch.cloudInstanceId ++
        cluster.toList.map fun ean => .parents [ean]
    return 1

/-- Publish every node. -/
def collectNodes (e : Emitter) (fetches : Bool) (s : Stores) : Try Nat := do
  let cluster ← clusterParent fetches s.nodes.values
  Work.total (publishNode e cluster) s.nodes.values

/-- The name of the node that a pod runs on, when it is known. -/
def hostOf? (s : Stores) (p : Pod) : Option Ean :=
  ((s.nodes.get? p.spec.nodeName).bind fun n => Text.nonEmpty n.metadata.uid).map fun uid =>
    ⟨.host, uid⟩

/-- Publish a pod. -/
def publishPod (e : Emitter) (s : Stores) (p : Pod) : Step Nat :=
  match Text.nonEmpty p.metadata.uid with
  | none => Emitter.skip .pod "uid"
  | some uid => do
    e.emit .pod uid <|
      Patch.maybeName (some p.metadata.name) ++
        Patch.podData p.metadata.name uid p.metadata.space p.status.startTime ++
        (hostOf? s p).toList.map fun ean => .parents [ean]
    return 1

/-- Publish every pod. -/
def collectPods (e : Emitter) (s : Stores) : Try Nat :=
  Work.total (publishPod e s) s.pods.values

/-- Publish a container of the pod `p`; one that has not been created is none. -/
def publishContainer (e : Emitter) (p : Pod) (c : ContainerStatus) : Step Nat :=
  match c.runtimeId? with
  | none => pure 0
  | some id => do
    let (phase, start) := c.state.phase
    e.emit .container id <|
      Patch.maybeName (some c.name) ++
        Patch.containerData c.name id p.metadata.space phase start ++
        [.parents [⟨.containerGroup, p.metadata.uid⟩]]
    return 1

/-- Publish the containers of a pod, if the pod has an id. -/
def publishContainers (e : Emitter) (p : Pod) : Step Nat :=
  if p.metadata.uid = "" then pure 0 else Work.total (publishContainer e p) p.containers

/-- Publish every container. -/
def collectContainers (e : Emitter) (s : Stores) : Try Nat :=
  Work.total (publishContainers e) s.pods.values

/-- The work for a type; none for a type that Kubernetes does not have. -/
def work? (e : Emitter) (fetches : Bool) (s : Stores) : AssetType → Option (Try Nat)
  | .node => some (collectNodes e fetches s)
  | .pod => some (collectPods e s)
  | .container => some (collectContainers e s)
  | _ => none

/-- The jobs of a pass; `fetches` tells whether metadata can be looked up. -/
def pass (c : KubeConfig) (fetches : Bool) (stamp : Instant) (s : Stores) :
    List (Job Unit Call Answer) :=
  (Provider.kube.types.filter c.base.enables).filterMap fun type =>
    (work? ⟨stamp, c.base.space⟩ fetches s type).map fun work => ⟨type, "*", work⟩

/-- A job of a pass does the work for a type. -/
theorem exists_of_mem_pass {c : KubeConfig} {fetches : Bool} {stamp : Instant} {s : Stores}
    {job : Job Unit Call Answer} (h : job ∈ pass c fetches stamp s) :
    ∃ type work, work? ⟨stamp, c.base.space⟩ fetches s type = some work ∧
      job = ⟨type, "*", work⟩ := by
  obtain ⟨type, -, hjob⟩ := List.mem_filterMap.1 h
  obtain ⟨work, hwork, rfl⟩ := Option.map_eq_some_iff.1 hjob
  exact ⟨type, work, hwork, rfl⟩

/-- What a collector watches: nodes also for the parents of pods, and pods also for their
containers. -/
def watched (c : KubeConfig) : List Resource :=
  (if c.base.enables .node ∨ c.base.enables .pod then [.nodes] else []) ++
  (if c.base.enables .pod ∨ c.base.enables .container then [.pods] else [])

end CloudInventory.Kube
